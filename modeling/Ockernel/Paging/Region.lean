import Ockernel.Paging.PageDir

/-!
Searching and checking ranges of a directory (`find_hole`, `validate_region` in
`mm/paging.rs`).  Both are generic over `impl PageDirectory` and read it through one
method only, so the directory is that method here.  `usize` is 32 bits wide and its
arithmetic wraps, as in a build without overflow checks: the two roundings of the source
are taken modulo `2^32`.
-/

namespace Ockernel

/-- The addresses `(start..stop).step_by(step)` yields. -/
def stepBy (start stop step : Nat) : List Nat :=
  List.range' start ((stop - start + step - 1) / step) step

theorem mem_stepBy_pageSize {start stop addr : Nat} :
    addr ∈ stepBy start stop pageSize ↔
      start ≤ addr ∧ addr < stop ∧ (addr - start) % pageSize = 0 := by
  simp only [stepBy, List.mem_range', pageSize_eq]
  constructor
  · rintro ⟨i, hi, rfl⟩
    omega
  · rintro ⟨hstart, hstop, hmod⟩
    exact ⟨(addr - start) / 4096, by omega, by omega⟩

theorem stepBy_pageSize_of_lt {start stop : Nat} (h : start < stop) :
    stepBy start stop pageSize = start :: stepBy (start + pageSize) stop pageSize := by
  have hcount : (stop - start + pageSize - 1) / pageSize =
      (stop - (start + pageSize) + pageSize - 1) / pageSize + 1 := by
    simp only [pageSize_eq]
    omega
  rw [stepBy, hcount, List.range'_succ]
  rfl

theorem stepBy_pageSize_of_le {start stop : Nat} (h : stop ≤ start) :
    stepBy start stop pageSize = [] := by
  have hcount : (stop - start + pageSize - 1) / pageSize = 0 := by
    simp only [pageSize_eq]
    omega
  rw [stepBy, hcount, List.range'_zero]

/-- The addresses `(start..=stop).step_by(step)` yields. -/
def stepByInclusive (start stop step : Nat) : List Nat :=
  if stop < start then [] else List.range' start ((stop - start) / step + 1) step

theorem stepByInclusive_eq_append {start stop : Nat} (hle : start ≤ stop)
    (hmod : (stop - start) % pageSize = 0) :
    stepByInclusive start stop pageSize = stepBy start stop pageSize ++ [stop] := by
  have hcount : (stop - start + pageSize - 1) / pageSize = (stop - start) / pageSize := by
    simp only [pageSize_eq] at hmod ⊢
    omega
  have hlast : start + pageSize * ((stop - start) / pageSize) = stop := by
    simp only [pageSize_eq] at hmod ⊢
    omega
  rw [stepByInclusive, if_neg (by omega), stepBy, hcount, List.range'_concat, hlast]

/-! ### `validate_region` -/

/-- `validate_region`: every page of `start / P * P .. end` is mapped, where the end is
computed from the rounded-down start. -/
def validateRegion (getPage : Nat → Option PageFrame) (start len : Nat) : Bool :=
  let start := start / pageSize * pageSize
  let stop := ((start + len) % 2 ^ 32 / pageSize * pageSize + pageSize) % 2 ^ 32
  (stepBy start stop pageSize).all fun addr => (getPage addr).isSome

theorem validateRegion_true {getPage : Nat → Option PageFrame} {start len : Nat}
    (h : validateRegion getPage start len = true) {addr : Nat}
    (haddr : addr ∈ stepBy (start / pageSize * pageSize)
      (((start / pageSize * pageSize + len) % 2 ^ 32 / pageSize * pageSize + pageSize) % 2 ^ 32)
      pageSize) :
    (getPage addr).isSome := by
  simp only [validateRegion, List.all_eq_true] at h
  exact h addr haddr

/-- The first page alone is enough: with only page 0 mapped, the two bytes at `0xfff` are
accepted although the second one lies in the unmapped page `0x1000`. -/
theorem validateRegion_accepts_unmapped_byte :
    let getPage : Nat → Option PageFrame :=
      fun addr => if addr < pageSize then some { present := true } else none
    validateRegion getPage 0xfff 2 = true ∧ 0xfff + 1 < 2 ^ 32 ∧
      getPage ((0xfff + 1) / pageSize * pageSize) = none := by
  decide

/-- For a page-aligned start and a whole number of pages, `validate_region` also reads the
page right after the region, since the end it computes lies a page past the region's end. -/
theorem validateRegion_reads_page_past_end (getPage : Nat → Option PageFrame) (start len : Nat)
    (hstart : start % pageSize = 0) (hlen : len % pageSize = 0)
    (hfit : start + len + pageSize < 2 ^ 32) (hnext : getPage (start + len) = none) :
    validateRegion getPage start len = false := by
  have hs : start / pageSize * pageSize = start := Nat.div_mul_cancel (Nat.dvd_of_mod_eq_zero hstart)
  have hstop : ((start + len) % 2 ^ 32 / pageSize * pageSize + pageSize) % 2 ^ 32 =
      start + len + pageSize := by
    have hend : (start + len) % pageSize = 0 := by
      simp only [pageSize_eq] at hstart hlen ⊢
      omega
    rw [Nat.mod_eq_of_lt (show start + len < 2 ^ 32 by omega),
      Nat.div_mul_cancel (Nat.dvd_of_mod_eq_zero hend), Nat.mod_eq_of_lt hfit]
  simp only [validateRegion, hs, hstop, List.all_eq_false]
  refine ⟨start + len, mem_stepBy_pageSize.mpr ⟨by omega, ?_, ?_⟩, by simp [hnext]⟩
  · simp only [pageSize_eq]
    omega
  · simpa only [Nat.add_sub_cancel_left] using hlen

/-- Every page of `0x1000 .. 0x2000` is mapped, yet `validate_region` rejects the region
because page `0x2000` is not. -/
theorem validateRegion_reads_page_past_end_onePageDir :
    (∀ v, 0x1000 ≤ v → v < 0x1000 + 0x1000 → (onePageDir.getPage v).isSome) ∧
      (0x1000 : Nat) % pageSize = 0 ∧ 0x1000 + 0x1000 + pageSize < 2 ^ 32 ∧
      onePageDir.getPage (0x1000 + 0x1000) = none ∧
      validateRegion onePageDir.getPage 0x1000 0x1000 = false := by
  refine ⟨fun v hlow hhigh => ?_, rfl, by decide, rfl,
    validateRegion_reads_page_past_end _ _ _ rfl rfl (by decide) rfl⟩
  rw [PageDir.getPage, show v / pageSize = 1 by
    simp only [pageSize_eq]
    omega]
  rfl

theorem eq_of_aligned_of_lt_add {a q : Nat} (ha : a % pageSize = 0) (hq : q % pageSize = 0)
    (hle : a ≤ q) (hlt : q < a + pageSize) : q = a := by
  simp only [pageSize_eq] at *
  omega

theorem add_pageSize_le {a b : Nat} (ha : a % pageSize = 0) (hb : b % pageSize = 0) (hlt : a < b) :
    a + pageSize ≤ b := by
  simp only [pageSize_eq] at *
  omega

/-! ### `find_hole` -/

/-- The `for` loop of `find_hole` over the remaining addresses, carrying `hole_start`. -/
def findHoleLoop (isUnused : Nat → Bool) (start size : Nat) :
    List Nat → Option Nat → Option Nat
  | [], _ => none
  | addr :: rest, holeStart =>
    if isUnused addr then
      match holeStart with
      | some s =>
        if addr - s ≥ size then holeStart else findHoleLoop isUnused start size rest holeStart
      | none =>
        if addr ≥ start then findHoleLoop isUnused start size rest (some addr)
        else findHoleLoop isUnused start size rest holeStart
    else findHoleLoop isUnused start size rest none

theorem findHoleLoop_used {isUnused : Nat → Bool} {start size addr : Nat} {rest : List Nat}
    (holeStart : Option Nat) (hused : ¬isUnused addr = true) :
    findHoleLoop isUnused start size (addr :: rest) holeStart =
      findHoleLoop isUnused start size rest none := by
  simp [findHoleLoop, hused]

theorem findHoleLoop_some {isUnused : Nat → Bool} {start size addr s : Nat} {rest : List Nat}
    (hunused : isUnused addr = true) :
    findHoleLoop isUnused start size (addr :: rest) (some s) =
      if addr - s ≥ size then some s else findHoleLoop isUnused start size rest (some s) := by
  simp [findHoleLoop, hunused]

theorem findHoleLoop_none {isUnused : Nat → Bool} {start size addr : Nat} {rest : List Nat}
    (hunused : isUnused addr = true) :
    findHoleLoop isUnused start size (addr :: rest) none =
      if addr ≥ start then findHoleLoop isUnused start size rest (some addr)
      else findHoleLoop isUnused start size rest none := by
  simp [findHoleLoop, hunused]

/-- finds available area in this page directory's memory of given size; the size is
rounded down to a page and one page is added, with `usize` wrapping -/
def findHole (isUnused : Nat → Bool) (start stop size : Nat) : Except Fault (Option Nat) :=
  if start % pageSize ≠ 0 then .error (.panic "start address is not page aligned")
  else if stop % pageSize ≠ 0 then .error (.panic "end address is not page aligned")
  else
    let size := (size / pageSize * pageSize + pageSize) % 2 ^ 32
    .ok (findHoleLoop isUnused start size (stepBy start stop pageSize) none)

/-- What the loop knows of `hole_start` before address `addr`: it is a page-aligned address
at or above `start`, and every page from it up to `addr` is unused. -/
def HoleBefore (isUnused : Nat → Bool) (start addr : Nat) : Option Nat → Prop
  | none => True
  | some s => start ≤ s ∧ s ≤ addr ∧ s % pageSize = 0 ∧
      ∀ q, s ≤ q → q < addr → q % pageSize = 0 → isUnused q = true

theorem findHoleLoop_sound {isUnused : Nat → Bool} {start size : Nat} :
    ∀ (n addr : Nat) (holeStart : Option Nat) {h : Nat}, addr % pageSize = 0 →
      HoleBefore isUnused start addr holeStart →
      findHoleLoop isUnused start size (stepBy addr (addr + n * pageSize) pageSize)
        holeStart = some h →
      start ≤ h ∧ h % pageSize = 0 ∧ ∃ last, last < addr + n * pageSize ∧ h + size ≤ last ∧
        ∀ q, h ≤ q → q ≤ last → q % pageSize = 0 → isUnused q = true := by
  intro n
  induction n with
  | zero =>
    intro addr holeStart h _ _ hloop
    rw [stepBy_pageSize_of_le (by omega)] at hloop
    cases hloop
  | succ n ih =>
    intro addr holeStart h haligned hbefore hloop
    have hnext : (addr + pageSize) % pageSize = 0 := by
      simp only [pageSize_eq] at haligned ⊢
      omega
    have hend : addr + pageSize + n * pageSize = addr + (n + 1) * pageSize := by
      rw [Nat.succ_mul]
      omega
    rw [← hend] at hloop ⊢
    rw [stepBy_pageSize_of_lt (by simp only [pageSize_eq]; omega)] at hloop
    by_cases hunused : isUnused addr = true
    · cases holeStart with
      | some s =>
        obtain ⟨hs, hsa, hsal, hfree⟩ := hbefore
        rw [findHoleLoop_some hunused] at hloop
        split_ifs at hloop with hbig
        · obtain rfl := Option.some.inj hloop
          refine ⟨hs, hsal, addr, by simp only [pageSize_eq]; omega, by omega, ?_⟩
          intro q hq hqa hqal
          rcases Nat.lt_or_eq_of_le hqa with hlt | rfl
          · exact hfree q hq hlt hqal
          · exact hunused
        · refine ih (addr + pageSize) (some s) hnext ⟨hs, by omega, hsal, ?_⟩ hloop
          intro q hq hqa hqal
          by_cases hqlt : q < addr
          · exact hfree q hq hqlt hqal
          · have : q = addr := by simp only [pageSize_eq] at hqa hqal haligned; omega
            subst this
            exact hunused
      | none =>
        rw [findHoleLoop_none hunused] at hloop
        split_ifs at hloop with hge
        · refine ih (addr + pageSize) (some addr) hnext ⟨hge, by omega, haligned, ?_⟩ hloop
          intro q hq hqa hqal
          have : q = addr := by simp only [pageSize_eq] at hqa hqal haligned; omega
          subst this
          exact hunused
        · exact ih (addr + pageSize) none hnext trivial hloop
    · rw [findHoleLoop_used _ hunused] at hloop
      exact ih (addr + pageSize) none hnext trivial hloop

/-- A hole `find_hole` returns is aligned, at or above `start`, and unused for its rounded size. -/
theorem findHole_sound {isUnused : Nat → Bool} {start stop size h : Nat}
    (hfound : findHole isUnused start stop size = .ok (some h)) :
    let rounded := (size / pageSize * pageSize + pageSize) % 2 ^ 32
    h % pageSize = 0 ∧ start ≤ h ∧ h + rounded < stop ∧
      ∀ q, h ≤ q → q < h + rounded → q % pageSize = 0 → isUnused q = true := by
  intro rounded
  unfold findHole at hfound
  split_ifs at hfound with hstart hstop
  simp only [Except.ok.injEq] at hfound
  simp only [not_not] at hstart hstop
  by_cases hle : stop ≤ start
  · rw [stepBy_pageSize_of_le hle] at hfound
    cases hfound
  · have hn : stop = start + (stop - start) / pageSize * pageSize := by
      simp only [pageSize_eq] at hstart hstop ⊢
      omega
    rw [hn] at hfound
    obtain ⟨hs, hal, last, hlast, hsize, hfree⟩ :=
      findHoleLoop_sound _ start none hstart trivial hfound
    exact ⟨hal, hs, by omega, fun q hq hqs hqal => hfree q hq (by omega) hqal⟩

theorem findHole_sound_of_lt {isUnused : Nat → Bool} {start stop size h : Nat}
    (hsize : size < 2 ^ 32 - pageSize)
    (hfound : findHole isUnused start stop size = .ok (some h)) :
    h % pageSize = 0 ∧ start ≤ h ∧ h + (size + pageSize - 1) / pageSize * pageSize ≤ stop ∧
      ∀ q, h ≤ q → q < h + (size + pageSize - 1) / pageSize * pageSize → q % pageSize = 0 →
        isUnused q = true := by
  obtain ⟨hal, hs, hfit, hfree⟩ := findHole_sound hfound
  have hround : (size + pageSize - 1) / pageSize * pageSize ≤
      (size / pageSize * pageSize + pageSize) % 2 ^ 32 := by
    simp only [pageSize_eq] at hsize ⊢
    omega
  exact ⟨hal, hs, by omega, fun q hq hqs hqal => hfree q hq (by omega) hqal⟩

/-! ### `find_hole` as a first-fit search -/

/-- The pages `s, s + P, …, s + span` are all unused. -/
def RunUnused (isUnused : Nat → Bool) (s span : Nat) : Prop :=
  ∀ q, s ≤ q → q ≤ s + span → q % pageSize = 0 → isUnused q = true

/-- Whether the pages from `s` up to `s + span` are unused, the last of them below `stop`. -/
def fitsAt (isUnused : Nat → Bool) (stop span s : Nat) : Bool :=
  decide (s + span < stop) && (stepByInclusive s (s + span) pageSize).all isUnused

/-- What `find_hole` is for: the lowest page-aligned start of `start .. stop` from which the
pages up to `span` beyond are unused, the last of them below `stop`. -/
def firstFreeRun (isUnused : Nat → Bool) (start stop span : Nat) : Option Nat :=
  (stepBy start stop pageSize).find? (fitsAt isUnused stop span)

section FirstFit

variable {isUnused : Nat → Bool} {stop span : Nat}

theorem fitsAt_iff {s : Nat} (hs : s % pageSize = 0) (hspan : span % pageSize = 0) :
    fitsAt isUnused stop span s = true ↔ s + span < stop ∧ RunUnused isUnused s span := by
  rw [fitsAt, stepByInclusive_eq_append (Nat.le_add_right s span) (by simpa using hspan)]
  simp only [Bool.and_eq_true, decide_eq_true_eq, List.all_append, List.all_cons, List.all_nil,
    Bool.and_true, List.all_eq_true, mem_stepBy_pageSize]
  refine and_congr_right fun _ => ⟨fun ⟨hrun, hlast⟩ q hsq hqs hq => ?_, fun h => ⟨?_, ?_⟩⟩
  · rcases Nat.lt_or_eq_of_le hqs with hlt | rfl
    · exact hrun q ⟨hsq, hlt, by simp only [pageSize_eq] at hs hq ⊢; omega⟩
    · exact hlast
  · rintro q ⟨hsq, hqs, hq⟩
    exact h q hsq hqs.le (by simp only [pageSize_eq] at hs hq ⊢; omega)
  · exact h _ (Nat.le_add_right s span) le_rfl (by rw [Nat.add_mod, hs, hspan]; rfl)

theorem fitsAt_of_used {s addr : Nat} (hs : s % pageSize = 0) (hspan : span % pageSize = 0)
    (haddr : addr % pageSize = 0) (hsa : s ≤ addr) (has : addr ≤ s + span)
    (hused : ¬isUnused addr = true) : fitsAt isUnused stop span s = false := by
  rw [← Bool.not_eq_true, fitsAt_iff hs hspan]
  exact fun ⟨_, hrun⟩ => hused (hrun addr hsa has haddr)

theorem fitsAt_of_later {s addr : Nat} (hs : s % pageSize = 0) (hspan : span % pageSize = 0)
    (haddr : addr % pageSize = 0) (hsa : s ≤ addr)
    (hfree : ∀ q, s ≤ q → q < addr → q % pageSize = 0 → isUnused q = true)
    (hfits : fitsAt isUnused stop span addr = true) : fitsAt isUnused stop span s = true := by
  obtain ⟨hlt, hrun⟩ := (fitsAt_iff haddr hspan).mp hfits
  refine (fitsAt_iff hs hspan).mpr ⟨by omega, fun q hsq hqs hq => ?_⟩
  by_cases hqa : q < addr
  · exact hfree q hsq hqa hq
  · exact hrun q (by omega) (by omega) hq

theorem findHoleLoop_eq_find {start size : Nat} (hsize : size % pageSize = 0)
    (hspan : span = max size pageSize) :
    ∀ (n addr : Nat), addr % pageSize = 0 → start ≤ addr → stop = addr + n * pageSize →
      findHoleLoop isUnused start size (stepBy addr stop pageSize) none =
        (stepBy addr stop pageSize).find? (fitsAt isUnused stop span) ∧
      ∀ s, s % pageSize = 0 → s < addr → addr ≤ s + span →
        (∀ q, s ≤ q → q < addr → q % pageSize = 0 → isUnused q = true) →
        findHoleLoop isUnused start size (stepBy addr stop pageSize) (some s) =
          if fitsAt isUnused stop span s then some s
          else (stepBy addr stop pageSize).find? (fitsAt isUnused stop span) := by
  have hpos : 0 < pageSize := by decide
  have hspanLe : span ≤ size ∨ span ≤ pageSize := by omega
  have hspanMod : span % pageSize = 0 := by
    rcases Nat.le_total size pageSize with h | h
    · rw [hspan, max_eq_right h, Nat.mod_self]
    · rwa [hspan, max_eq_left h]
  -- what the loop needs of `span`, without the `max` that every `omega` would split
  have hspanGe : size ≤ span ∧ pageSize ≤ span := by omega
  clear hspan
  intro n
  induction n with
  | zero =>
    intro addr haddr _ hstop
    rw [stepBy_pageSize_of_le (by omega)]
    refine ⟨rfl, fun s hs _ has _ => ?_⟩
    have hnofit : fitsAt isUnused stop span s = false := by
      rw [← Bool.not_eq_true, fitsAt_iff hs hspanMod]
      omega
    rw [hnofit]
    rfl
  | succ n ih =>
    intro addr haddr hstart hstop
    have hlt : addr < stop := by
      simp only [pageSize_eq] at hstop
      omega
    obtain ⟨ihNone, ihSome⟩ := ih (addr + pageSize) (by rwa [Nat.add_mod_right]) (by omega)
      (by rw [hstop, Nat.succ_mul]; omega)
    rw [stepBy_pageSize_of_lt hlt]
    by_cases hunused : isUnused addr = true
    · refine ⟨?_, fun s hs hsa has hfree => ?_⟩
      · rw [findHoleLoop_none hunused, if_pos hstart,
          ihSome addr haddr (by omega) (by omega)
            (fun q hq hqa hqal => eq_of_aligned_of_lt_add haddr hqal hq hqa ▸ hunused),
          List.find?_cons]
        cases fitsAt isUnused stop span addr <;> rfl
      · rw [findHoleLoop_some hunused]
        have hfree' : ∀ q, s ≤ q → q < addr + pageSize → q % pageSize = 0 → isUnused q = true :=
          fun q hsq hqa hq => by
            by_cases hqlt : q < addr
            · exact hfree q hsq hqlt hq
            · exact eq_of_aligned_of_lt_add haddr hq (not_lt.mp hqlt) hqa ▸ hunused
        split_ifs with hbig hfits hfits
        · rfl
        · -- the hole has reached `addr`, past the span
          have hreach : s + span ≤ addr := by
            have := add_pageSize_le hs haddr hsa
            omega
          exact absurd ((fitsAt_iff hs hspanMod).mpr
            ⟨by omega, fun q hsq hqs hq => hfree' q hsq (by omega) hq⟩) hfits
        all_goals
          -- the hole has not reached its size: it goes on at the next page
          have hgrow : addr + pageSize ≤ s + span := by
            have := add_pageSize_le haddr (by rw [Nat.add_mod, hs, hsize]; rfl)
              (show addr < s + size by omega)
            omega
          rw [ihSome s hs (by omega) hgrow hfree']
        · rw [if_pos hfits]
        · rw [if_neg hfits, List.find?_cons_of_neg _ fun hlater =>
            hfits (fitsAt_of_later hs hspanMod haddr hsa.le hfree hlater)]
    · have hnofit : fitsAt isUnused stop span addr = false :=
        fitsAt_of_used haddr hspanMod haddr le_rfl (Nat.le_add_right _ _) hunused
      refine ⟨?_, fun s hs hsa has _ => ?_⟩
      · rw [findHoleLoop_used _ hunused, ihNone, List.find?_cons_of_neg _ (by simp [hnofit])]
      · rw [findHoleLoop_used _ hunused, ihNone, List.find?_cons_of_neg _ (by simp [hnofit]),
          fitsAt_of_used hs hspanMod haddr hsa.le has hunused, if_neg Bool.false_ne_true]

end FirstFit

/-- `find_hole` over page-aligned bounds is a first-fit search: it returns the lowest
page-aligned start at or above `start` from which the pages up to `max rounded P` beyond are
unused, the last of them below `end`, where `rounded` is the size rounded as the code does;
and `None` when there is no such start. -/
theorem findHole_eq_firstFreeRun {isUnused : Nat → Bool} {start stop : Nat}
    (hstart : start % pageSize = 0) (hstop : stop % pageSize = 0) (size : Nat) :
    findHole isUnused start stop size = .ok (firstFreeRun isUnused start stop
      (max ((size / pageSize * pageSize + pageSize) % 2 ^ 32) pageSize)) := by
  have hrounded : (size / pageSize * pageSize + pageSize) % 2 ^ 32 % pageSize = 0 := by
    simp only [pageSize_eq]
    omega
  rw [findHole, if_neg (by simpa using hstart), if_neg (by simpa using hstop), firstFreeRun]
  by_cases hle : stop ≤ start
  · rw [stepBy_pageSize_of_le hle]
    rfl
  · exact congrArg Except.ok ((findHoleLoop_eq_find hrounded rfl ((stop - start) / pageSize) start
      hstart le_rfl (by simp only [pageSize_eq] at hstart hstop hle ⊢; omega)).1)

theorem findHole_eq_firstFreeRun_onePageDir :
    (0 : Nat) % pageSize = 0 ∧ (0x10000 : Nat) % pageSize = 0 ∧
      findHole onePageDir.isUnused 0 0x10000 0x1000 =
        .ok (firstFreeRun onePageDir.isUnused 0 0x10000
          (max ((0x1000 / pageSize * pageSize + pageSize) % 2 ^ 32) pageSize)) :=
  ⟨rfl, rfl, findHole_eq_firstFreeRun rfl rfl 0x1000⟩

/-- A request within a page of `2^32` wraps the rounded size to `0`, and a two-page gap is
returned for it. -/
theorem findHole_wraps_huge_size :
    findHole (fun _ => true) 0 0x2000 0xffffffff = .ok (some 0) ∧
      ¬ 0 + (0xffffffff + pageSize - 1) / pageSize * pageSize ≤ 0x2000 :=
  ⟨rfl, by decide⟩

/-- With page `0x1000` used, the lowest hole of one page in `0 .. 0x10000` is at `0`, but
`find_hole` asks for two pages (`size / P * P + P`) and for the page after them to be unused
too, and returns `0x2000`. -/
theorem findHole_skips_lowest_hole :
    onePageDir.isUnused 0 = true ∧ 0 + (0x1000 + pageSize - 1) / pageSize * pageSize ≤ 0x10000 ∧
      findHole onePageDir.isUnused 0 0x10000 0x1000 = .ok (some 0x2000) :=
  ⟨rfl, by decide, rfl⟩

end Ockernel
