import Mathlib
import Kubernetes.Library.GoInt
import Kubernetes.Library.Strconv

/-! The completed indexes of an indexed Job, from `pkg/controller/job/indexed_job_utils.go`.

The controller keeps the indexes of succeeded pods as `orderedIntervals`, closed intervals in
increasing order with a gap between neighbours, and writes them to the Job status as text:
`String` lists the intervals separated by commas, an interval of two indexes as `a,b` and a
longer one as `a-b`; `succeededIndexesFromJob` reads that text back, merging a piece into the
interval before it when they are adjacent, clipping every interval below `completions` and
stopping at the first piece that starts at or after it.

Indexes are Go `int`s and the interval code adds one to an interval's end, so an interval
that ends at `math.MaxInt` is read as adjacent to nothing and counts a negative size.
-/

set_option autoImplicit false

namespace Kubernetes.Controller.Job

open Kubernetes.Library

/-- `interval`: the indexes from `First` to `Last`. -/
structure Interval where
  first : ℤ
  last : ℤ
  deriving DecidableEq, Repr

abbrev OrderedIntervals := List Interval

/-- The indexes the intervals denote. -/
noncomputable def OrderedIntervals.indexes : OrderedIntervals → Finset ℤ
  | [] => ∅
  | iv :: oi => Finset.Icc iv.first iv.last ∪ indexes oi

/-- Intervals as the controller keeps them: each starts at 0 or later and ends at or after its
start, and each ends more than one index before the next starts. -/
structure Normalized (oi : OrderedIntervals) : Prop where
  valid : ∀ iv ∈ oi, 0 ≤ iv.first ∧ iv.first ≤ iv.last
  apart : oi.Pairwise fun a b => a.last + 1 < b.first

instance (oi : OrderedIntervals) : Decidable (Normalized oi) :=
  decidable_of_iff ((∀ iv ∈ oi, 0 ≤ iv.first ∧ iv.first ≤ iv.last) ∧ oi.Pairwise fun a b => a.last + 1 < b.first)
    ⟨fun holds => ⟨holds.1, holds.2⟩, fun normalized => ⟨normalized.valid, normalized.apart⟩⟩

/-- `appendOrMergeWithLastInterval`, on the intervals built so far, last first. -/
def appendOrMergeWithLastInterval (built : List Interval) (thisInterval : Interval) : List Interval :=
  match built with
  | [] => [thisInterval]
  | lastInterval :: earlier =>
    if thisInterval.first > intAdd lastInterval.last 1 then thisInterval :: built
    else if lastInterval.last < thisInterval.last then { lastInterval with last := thisInterval.last } :: earlier
    else built

/-- The loops of `withOrderedIndexes` over the intervals `oi` and the indexes `newIndexes`
still to visit, for at most `fuel` of them; every iteration visits one. -/
def OrderedIntervals.withOrderedIndexes.loop : ℕ → OrderedIntervals → List ℤ → List Interval → List Interval
  | 0, _, _, built => built
  | _ + 1, [], [], built => built
  | fuel + 1, iv :: oi, [], built => loop fuel oi [] (appendOrMergeWithLastInterval built iv)
  | fuel + 1, [], ix :: newIndexes, built => loop fuel [] newIndexes (appendOrMergeWithLastInterval built ⟨ix, ix⟩)
  | fuel + 1, iv :: oi, ix :: newIndexes, built =>
    if iv.first < ix then loop fuel oi (ix :: newIndexes) (appendOrMergeWithLastInterval built iv)
    else loop fuel (iv :: oi) newIndexes (appendOrMergeWithLastInterval built ⟨ix, ix⟩)

/-- `withOrderedIndexes`: the intervals with the indexes `newIndexes`, given in increasing
order, added. -/
def OrderedIntervals.withOrderedIndexes (oi : OrderedIntervals) (newIndexes : List ℤ) : OrderedIntervals :=
  (withOrderedIndexes.loop (oi.length + newIndexes.length) oi newIndexes []).reverse

/-- `total`: `count += iv.Last - iv.First + 1` over the intervals. -/
def OrderedIntervals.total (oi : OrderedIntervals) : ℤ :=
  oi.foldl (fun count iv => intAdd count (intAdd (intSub iv.last iv.first) 1)) 0

/-- One iteration of `String`: a comma unless nothing is written yet, then the interval. -/
def writeInterval (builder : List Char) (v : Interval) : List Char :=
  let builder := (if builder.length > 0 then builder ++ [','] else builder) ++ itoa v.first
  if v.last > v.first then
    (if v.last = intAdd v.first 1 then builder ++ [','] else builder ++ ['-']) ++ itoa v.last
  else builder

def OrderedIntervals.string (oi : OrderedIntervals) : String :=
  String.ofList (oi.foldl writeInterval [])

/-- The loop of `has`: the lower bound of `ix` among the intervals' ends, searched between
`lo` and `hi` for at most `fuel` halvings. -/
def OrderedIntervals.has.search (oi : OrderedIntervals) (ix : ℤ) : ℕ → ℕ → ℕ → ℕ
  | 0, _, hi => hi
  | fuel + 1, lo, hi =>
    if hi > lo then
      let mid := lo + (hi - lo) / 2
      match oi[mid]? with
      | some iv => if iv.last ≥ ix then search oi ix fuel lo mid else search oi ix fuel (mid + 1) hi
      | none => hi
    else hi

def OrderedIntervals.has (oi : OrderedIntervals) (ix : ℤ) : Bool :=
  let hi := has.search oi ix oi.length 0 oi.length
  if hi = oi.length then false
  else
    match oi[hi]? with
    | some iv => decide (iv.first ≤ ix)
    | none => false

/-- The end of the interval of one piece of `succeededIndexesFromJob`, split at its dashes:
the number after the first dash, clipped below `completions`, or the start when there is no
dash. -/
def readLast (completions first : ℤ) (limitsStr : List (List Char)) : Except NumError ℤ :=
  match limitsStr with
  -- `completions` is above `first`, so `completions - 1` does not wrap
  | _ :: lastStr :: _ => (atoi lastStr).map fun last => if last ≥ completions then completions - 1 else last
  | _ => .ok first

/-- One iteration of the loop of `succeededIndexesFromJob` over the comma-separated pieces,
on the intervals read so far, last first: `none` is the `break` at a piece that starts at or
after `completions`, and a corrupted piece is skipped. -/
def readInterval (completions : ℤ) (result : List Interval) (intervalStr : List Char) : Option (List Interval) :=
  let limitsStr := intervalStr.splitOn '-'
  match atoi (limitsStr.headD []) with
  | .error _ => some result
  | .ok first =>
    if first ≥ completions then none
    else
      match readLast completions first limitsStr with
      | .error _ => some result
      | .ok last =>
        match result with
        -- `first` is read from text without a minus sign, so `first - 1` does not wrap
        | lastInterval :: earlier =>
          if lastInterval.last = first - 1 then some ({ lastInterval with last } :: earlier)
          else some (⟨first, last⟩ :: result)
        | [] => some [⟨first, last⟩]

/-- The loop of `succeededIndexesFromJob`. -/
def readIntervals (completions : ℤ) : List (List Char) → List Interval → List Interval
  | [], result => result
  | intervalStr :: rest, result =>
    match readInterval completions result intervalStr with
    | none => result
    | some result => readIntervals completions rest result

/-- `succeededIndexesFromJob`, given the Job's `Status.CompletedIndexes` and `Spec.Completions`. -/
def succeededIndexesFromJob (completedIndexes : String) (completions : ℤ) : OrderedIntervals :=
  if completedIndexes = "" then []
  else (readIntervals completions (completedIndexes.toList.splitOn ',') []).reverse

/-! ## The indexes of normalized intervals -/

namespace OrderedIntervals

@[simp] theorem indexes_nil : indexes [] = ∅ := rfl

@[simp] theorem indexes_cons (iv : Interval) (oi : OrderedIntervals) :
    indexes (iv :: oi) = Finset.Icc iv.first iv.last ∪ indexes oi := rfl

@[simp] theorem indexes_append (front back : OrderedIntervals) : (front ++ back).indexes = front.indexes ∪ back.indexes := by
  induction front with
  | nil => simp
  | cons iv front ih => simp [ih, Finset.union_assoc]

theorem mem_indexes {oi : OrderedIntervals} {ix : ℤ} : ix ∈ oi.indexes ↔ ∃ iv ∈ oi, iv.first ≤ ix ∧ ix ≤ iv.last := by
  induction oi with
  | nil => simp
  | cons iv oi ih => simp [ih]

end OrderedIntervals

namespace Normalized

theorem cons_iff {iv : Interval} {oi : OrderedIntervals} :
    Normalized (iv :: oi) ↔ (0 ≤ iv.first ∧ iv.first ≤ iv.last) ∧ (∀ b ∈ oi, iv.last + 1 < b.first) ∧ Normalized oi := by
  constructor
  · rintro ⟨valid, apart⟩
    rw [List.pairwise_cons] at apart
    exact ⟨valid iv List.mem_cons_self, apart.1, fun b member => valid b (List.mem_cons_of_mem _ member), apart.2⟩
  · rintro ⟨validFirst, before, valid, apart⟩
    refine ⟨fun b member => ?_, List.pairwise_cons.mpr ⟨before, apart⟩⟩
    rcases List.mem_cons.mp member with rfl | later
    · exact validFirst
    · exact valid b later

theorem append_singleton_iff {oi : OrderedIntervals} {iv : Interval} :
    Normalized (oi ++ [iv]) ↔ Normalized oi ∧ (0 ≤ iv.first ∧ iv.first ≤ iv.last) ∧ ∀ a ∈ oi, a.last + 1 < iv.first := by
  constructor
  · rintro ⟨valid, apart⟩
    rw [List.pairwise_append] at apart
    exact ⟨⟨fun a member => valid a (List.mem_append_left _ member), apart.1⟩, valid iv (by simp),
      fun a member => apart.2.2 a member iv List.mem_cons_self⟩
  · rintro ⟨⟨valid, apart⟩, validLast, before⟩
    refine ⟨fun a member => ?_, List.pairwise_append.mpr ⟨apart, List.pairwise_singleton _ _, ?_⟩⟩
    · rcases List.mem_append.mp member with earlier | last
      · exact valid a earlier
      · rw [List.mem_singleton.mp last]
        exact validLast
    · intro a member b last
      rw [List.mem_singleton.mp last]
      exact before a member

theorem lasts {oi : OrderedIntervals} (normalized : Normalized oi) : oi.Pairwise fun a b => a.last < b.last :=
  normalized.apart.imp_of_mem fun {_ b} _ member apart => by
    have := (normalized.valid b member).2
    omega

theorem apart_drop {oi : OrderedIntervals} (normalized : Normalized oi) {k : ℕ} (inside : k < oi.length) :
    ∀ b ∈ oi.drop (k + 1), oi[k].last + 1 < b.first := by
  have apart := normalized.apart.sublist (List.drop_sublist k oi)
  rw [List.drop_eq_getElem_cons inside, List.pairwise_cons] at apart
  exact apart.1

end Normalized

/-! ## Merging indexes into intervals -/

namespace OrderedIntervals

/-- The intervals `withOrderedIndexes` has built, last first: normalized in their order, each
ending below the largest `int`. -/
structure Building (built : List Interval) : Prop where
  normalized : Normalized built.reverse
  fits : ∀ iv ∈ built, iv.last < maxInt

theorem building_nil : Building [] := ⟨⟨by simp, by simp⟩, by simp⟩

theorem Building.cons_iff {lastInterval : Interval} {earlier : List Interval} :
    Building (lastInterval :: earlier) ↔ Building earlier ∧ (0 ≤ lastInterval.first ∧ lastInterval.first ≤ lastInterval.last) ∧
      (∀ a ∈ earlier, a.last + 1 < lastInterval.first) ∧ lastInterval.last < maxInt := by
  constructor
  · rintro ⟨normalized, fits⟩
    rw [List.reverse_cons, Normalized.append_singleton_iff] at normalized
    obtain ⟨normalizedEarlier, valid, before⟩ := normalized
    exact ⟨⟨normalizedEarlier, fun iv member => fits iv (List.mem_cons_of_mem _ member)⟩, valid,
      fun a member => before a (List.mem_reverse.mpr member), fits lastInterval List.mem_cons_self⟩
  · rintro ⟨⟨normalizedEarlier, fitsEarlier⟩, valid, before, lastFits⟩
    refine ⟨?_, fun iv member => ?_⟩
    · rw [List.reverse_cons, Normalized.append_singleton_iff]
      exact ⟨normalizedEarlier, valid, fun a member => before a (List.mem_reverse.mp member)⟩
    · rcases List.mem_cons.mp member with rfl | older
      · exact lastFits
      · exact fitsEarlier iv older

theorem Building.appendOrMerge {built : List Interval} (building : Building built) {item : Interval}
    (valid : 0 ≤ item.first ∧ item.first ≤ item.last) (fits : item.last < maxInt)
    (after : ∀ h ∈ built.head?, h.first ≤ item.first) :
    Building (appendOrMergeWithLastInterval built item) ∧
      (∀ h ∈ (appendOrMergeWithLastInterval built item).head?, h.first ≤ item.first) ∧
      indexes (appendOrMergeWithLastInterval built item).reverse = indexes built.reverse ∪ Finset.Icc item.first item.last := by
  cases built with
  | nil =>
    exact ⟨Building.cons_iff.mpr ⟨building_nil, valid, by simp, fits⟩, by simp [appendOrMergeWithLastInterval],
      by simp [appendOrMergeWithLastInterval]⟩
  | cons lastInterval earlier =>
    obtain ⟨buildingEarlier, validLast, beforeLast, lastFits⟩ := Building.cons_iff.mp building
    have starts : lastInterval.first ≤ item.first := after lastInterval rfl
    have next : intAdd lastInterval.last 1 = lastInterval.last + 1 :=
      intAdd_of_fits (by omega) (by omega)
    simp only [appendOrMergeWithLastInterval]
    rw [next]
    split_ifs with apart grows
    · -- a gap before the interval: it is appended
      refine ⟨Building.cons_iff.mpr ⟨building, valid, fun a member => ?_, fits⟩, by simp, by simp⟩
      rcases List.mem_cons.mp member with rfl | older
      · omega
      · have := beforeLast a older
        omega
    · -- the interval overlaps or touches the last one and reaches further: the last one grows
      refine ⟨Building.cons_iff.mpr ⟨buildingEarlier, ⟨validLast.1, by simp only; omega⟩, beforeLast, fits⟩,
        by simpa using starts, ?_⟩
      have joined : Finset.Icc lastInterval.first item.last =
          Finset.Icc lastInterval.first lastInterval.last ∪ Finset.Icc item.first item.last := by
        ext ix
        simp only [Finset.mem_union, Finset.mem_Icc]
        omega
      simp [joined, Finset.union_assoc]
    · -- the interval lies within the last one
      refine ⟨building, by simpa using starts, ?_⟩
      have within : Finset.Icc item.first item.last ⊆ Finset.Icc lastInterval.first lastInterval.last :=
        Finset.Icc_subset_Icc starts (by omega)
      simp [Finset.union_assoc, Finset.union_eq_left.mpr within]

theorem Building.visit {built : List Interval} (building : Building built) (item : Interval)
    (oi : OrderedIntervals) (newIndexes : List ℤ)
    (valid : 0 ≤ item.first ∧ item.first ≤ item.last) (fits : item.last < maxInt)
    (after : ∀ h ∈ built.head?, h.first ≤ item.first)
    (first : (∀ iv ∈ oi, item.first ≤ iv.first) ∧ ∀ ix ∈ newIndexes, item.first ≤ ix) :
    Building (appendOrMergeWithLastInterval built item) ∧
      (∀ h ∈ (appendOrMergeWithLastInterval built item).head?,
        (∀ iv ∈ oi, h.first ≤ iv.first) ∧ ∀ ix ∈ newIndexes, h.first ≤ ix) ∧
      indexes (appendOrMergeWithLastInterval built item).reverse = indexes built.reverse ∪ Finset.Icc item.first item.last := by
  obtain ⟨building', starts, added⟩ := building.appendOrMerge valid fits after
  refine ⟨building', fun h member => ⟨fun iv later => ?_, fun ix later => ?_⟩, added⟩
  · exact (starts h member).trans (first.1 iv later)
  · exact (starts h member).trans (first.2 ix later)

theorem Building.loop {fuel : ℕ} {oi : OrderedIntervals} {newIndexes : List ℤ} {built : List Interval}
    (enough : oi.length + newIndexes.length ≤ fuel) (building : Building built)
    (normalized : Normalized oi) (fits : ∀ iv ∈ oi, iv.last < maxInt)
    (increasing : newIndexes.Pairwise (· < ·)) (valid : ∀ ix ∈ newIndexes, 0 ≤ ix ∧ ix < maxInt)
    (ahead : ∀ h ∈ built.head?, (∀ iv ∈ oi, h.first ≤ iv.first) ∧ ∀ ix ∈ newIndexes, h.first ≤ ix) :
    Building (withOrderedIndexes.loop fuel oi newIndexes built) ∧
      indexes (withOrderedIndexes.loop fuel oi newIndexes built).reverse =
        indexes built.reverse ∪ indexes oi ∪ newIndexes.toFinset := by
  induction fuel generalizing oi newIndexes built with
  | zero =>
    obtain ⟨rfl, rfl⟩ : oi = [] ∧ newIndexes = [] := by simpa using enough
    simp [withOrderedIndexes.loop, building]
  | succ fuel ih =>
    -- every iteration visits the interval or the index that starts first
    match oi, newIndexes with
    | [], [] => simp [withOrderedIndexes.loop, building]
    | iv :: oi, [] =>
      obtain ⟨validIv, beforeRest, normalizedRest⟩ := Normalized.cons_iff.mp normalized
      obtain ⟨building', ahead', added⟩ := building.visit iv oi [] validIv
        (fits iv List.mem_cons_self) (fun h member => (ahead h member).1 iv List.mem_cons_self)
        ⟨fun b later => by have := beforeRest b later; omega, by simp⟩
      obtain ⟨built', visited⟩ := ih (by simp at enough ⊢; omega) building' normalizedRest
        (fun b later => fits b (List.mem_cons_of_mem _ later)) List.Pairwise.nil (by simp) ahead'
      refine ⟨built', ?_⟩
      rw [withOrderedIndexes.loop, visited, added]
      simp [Finset.union_assoc]
    | [], ix :: newIndexes =>
      obtain ⟨validIx, fitsIx⟩ := valid ix List.mem_cons_self
      obtain ⟨below, increasingRest⟩ := List.pairwise_cons.mp increasing
      obtain ⟨building', ahead', added⟩ := building.visit ⟨ix, ix⟩ [] newIndexes
        ⟨validIx, le_refl ix⟩ fitsIx (fun h member => (ahead h member).2 ix List.mem_cons_self)
        ⟨by simp, fun later member => (below later member).le⟩
      obtain ⟨built', visited⟩ := ih (by simp at enough ⊢; omega) building' normalized (by simp) increasingRest
        (fun later member => valid later (List.mem_cons_of_mem _ member)) ahead'
      refine ⟨built', ?_⟩
      rw [withOrderedIndexes.loop, visited, added]
      ext
      simp
    | iv :: oi, ix :: newIndexes =>
      obtain ⟨validIv, beforeRest, normalizedRest⟩ := Normalized.cons_iff.mp normalized
      obtain ⟨validIx, fitsIx⟩ := valid ix List.mem_cons_self
      obtain ⟨below, increasingRest⟩ := List.pairwise_cons.mp increasing
      rw [withOrderedIndexes.loop]
      split_ifs with intervalFirst
      · obtain ⟨building', ahead', added⟩ := building.visit iv oi (ix :: newIndexes) validIv
          (fits iv List.mem_cons_self) (fun h member => (ahead h member).1 iv List.mem_cons_self)
          ⟨fun b later => by have := beforeRest b later; omega, fun later member => by
            rcases List.mem_cons.mp member with rfl | member
            · exact intervalFirst.le
            · have := below later member
              omega⟩
        obtain ⟨built', visited⟩ := ih (by simp at enough ⊢; omega) building' normalizedRest
          (fun b later => fits b (List.mem_cons_of_mem _ later)) increasing valid ahead'
        refine ⟨built', ?_⟩
        rw [visited, added]
        simp [Finset.union_assoc]
      · obtain ⟨building', ahead', added⟩ := building.visit ⟨ix, ix⟩ (iv :: oi) newIndexes
          ⟨validIx, le_refl ix⟩ fitsIx (fun h member => (ahead h member).2 ix List.mem_cons_self)
          ⟨fun b member => by
            rcases List.mem_cons.mp member with rfl | later
            · exact not_lt.mp intervalFirst
            · have := beforeRest b later
              show ix ≤ b.first
              omega, fun later member => (below later member).le⟩
        obtain ⟨built', visited⟩ := ih (by simp at enough ⊢; omega) building' normalized fits increasingRest
          (fun later member => valid later (List.mem_cons_of_mem _ member)) ahead'
        refine ⟨built', ?_⟩
        rw [visited, added, Finset.Icc_self, List.toFinset_cons]
        ext
        simp only [Finset.mem_union, Finset.mem_insert, Finset.mem_singleton]
        tauto

theorem withOrderedIndexes_spec {oi : OrderedIntervals} {newIndexes : List ℤ} (normalized : Normalized oi)
    (fits : ∀ iv ∈ oi, iv.last < maxInt) (increasing : newIndexes.Pairwise (· < ·))
    (valid : ∀ ix ∈ newIndexes, 0 ≤ ix ∧ ix < maxInt) :
    Normalized (oi.withOrderedIndexes newIndexes) ∧ (∀ iv ∈ oi.withOrderedIndexes newIndexes, iv.last < maxInt) ∧
      indexes (oi.withOrderedIndexes newIndexes) = indexes oi ∪ newIndexes.toFinset := by
  obtain ⟨⟨normalized', fits'⟩, visited⟩ :=
    building_nil.loop (le_refl (oi.length + newIndexes.length)) normalized fits increasing valid (by simp)
  refine ⟨normalized', fun iv member => fits' iv (List.mem_reverse.mp member), ?_⟩
  rw [withOrderedIndexes, visited]
  simp

example : OrderedIntervals.withOrderedIndexes [⟨0, 0⟩, ⟨5, 9⟩] [1, 3, 10] = [⟨0, 1⟩, ⟨3, 3⟩, ⟨5, 10⟩] := by decide

/-! ## Membership -/

/-- The bounds of the search in `has`: the intervals before `lo` end below `ix`, those from
`hi` on at or after it. -/
structure Bounds (oi : OrderedIntervals) (ix : ℤ) (lo hi : ℕ) : Prop where
  ordered : lo ≤ hi
  within : hi ≤ oi.length
  below : ∀ iv ∈ oi.take lo, iv.last < ix
  above : ∀ iv ∈ oi.drop hi, ix ≤ iv.last

theorem Bounds.start (oi : OrderedIntervals) (ix : ℤ) : Bounds oi ix 0 oi.length :=
  ⟨Nat.zero_le _, le_refl _, by simp, by simp⟩

section Search

variable {oi : OrderedIntervals} {ix : ℤ} {lo hi mid : ℕ}

theorem Bounds.lower (normalized : Normalized oi) (bounds : Bounds oi ix lo hi) (middle : lo ≤ mid)
    (midInside : mid < oi.length) (reaches : ix ≤ oi[mid].last) : Bounds oi ix lo mid := by
  refine ⟨middle, by omega, bounds.below, fun iv member => ?_⟩
  rw [List.drop_eq_getElem_cons midInside, List.mem_cons] at member
  rcases member with rfl | later
  · exact reaches
  · have := normalized.apart_drop midInside iv later
    have := (normalized.valid iv (List.mem_of_mem_drop later)).2
    omega

theorem Bounds.raise (normalized : Normalized oi) (bounds : Bounds oi ix lo hi) (inside : mid < hi)
    (midInside : mid < oi.length) (short : oi[mid].last < ix) : Bounds oi ix (mid + 1) hi := by
  refine ⟨by omega, bounds.within, fun iv member => ?_, bounds.above⟩
  rw [List.take_add_one, List.getElem?_eq_getElem midInside, Option.toList_some, List.mem_append,
    List.mem_singleton] at member
  rcases member with earlier | rfl
  · have lasts := normalized.lasts.rel_of_mem_take_of_mem_drop earlier
      (by rw [List.drop_eq_getElem_cons midInside]; exact List.mem_cons_self)
    omega
  · exact short

theorem Bounds.search (normalized : Normalized oi) {fuel : ℕ} (bounds : Bounds oi ix lo hi) (enough : hi - lo ≤ fuel) :
    Bounds oi ix (has.search oi ix fuel lo hi) (has.search oi ix fuel lo hi) := by
  induction fuel generalizing lo hi with
  | zero =>
    obtain rfl : lo = hi := by have := bounds.ordered; omega
    exact bounds
  | succ fuel ih =>
    rw [has.search]
    split_ifs with more
    · have midInside : lo + (hi - lo) / 2 < oi.length := by have := bounds.within; omega
      simp only [List.getElem?_eq_getElem midInside]
      split_ifs with reaches
      · exact ih (bounds.lower normalized (by omega) midInside reaches) (by omega)
      · exact ih (bounds.raise normalized (by omega) midInside (not_le.mp reaches)) (by omega)
    · obtain rfl : lo = hi := by have := bounds.ordered; omega
      exact bounds

end Search

theorem has_iff {oi : OrderedIntervals} (normalized : Normalized oi) (ix : ℤ) : oi.has ix = true ↔ ix ∈ indexes oi := by
  have bounds : Bounds oi ix (has.search oi ix oi.length 0 oi.length) (has.search oi ix oi.length 0 oi.length) :=
    (Bounds.start oi ix).search normalized (by omega)
  rw [has, mem_indexes]
  split_ifs with atEnd
  · -- every interval ends below `ix`
    simp only [false_iff, not_exists, not_and]
    intro iv member _ reaches
    have := bounds.below iv (by rw [atEnd, List.take_length]; exact member)
    omega
  · have inside : has.search oi ix oi.length 0 oi.length < oi.length := by have := bounds.within; omega
    simp only [List.getElem?_eq_getElem inside, decide_eq_true_eq]
    have reaches := bounds.above _ (by rw [List.drop_eq_getElem_cons inside]; exact List.mem_cons_self)
    constructor
    · intro starts
      exact ⟨_, List.getElem_mem inside, starts, reaches⟩
    · -- only the interval the search stops at can hold `ix`
      rintro ⟨iv, member, starts, ends⟩
      rw [← List.take_append_drop (has.search oi ix oi.length 0 oi.length) oi, List.mem_append,
        List.drop_eq_getElem_cons inside, List.mem_cons] at member
      rcases member with earlier | rfl | later
      · have := bounds.below iv earlier
        omega
      · exact starts
      · have := normalized.apart_drop inside iv later
        omega

/-! ## Counting -/

theorem card_indexes_cons {iv : Interval} {oi : OrderedIntervals} (normalized : Normalized (iv :: oi)) :
    ((indexes (iv :: oi)).card : ℤ) = iv.last + 1 - iv.first + (indexes oi).card := by
  obtain ⟨valid, before, -⟩ := Normalized.cons_iff.mp normalized
  have apart : Disjoint (Finset.Icc iv.first iv.last) (indexes oi) := by
    rw [Finset.disjoint_left]
    intro ix inIv inRest
    obtain ⟨b, member, starts, -⟩ := mem_indexes.mp inRest
    have := before b member
    have := (Finset.mem_Icc.mp inIv).2
    omega
  rw [indexes_cons, Finset.card_union_of_disjoint apart, Int.card_Icc]
  push_cast
  omega

theorem card_indexes_le {oi : OrderedIntervals} (normalized : Normalized oi) (fits : ∀ iv ∈ oi, iv.last < maxInt) :
    ((indexes oi).card : ℤ) ≤ maxInt := by
  have within : indexes oi ⊆ Finset.Ico 0 maxInt := fun ix member => by
    obtain ⟨iv, inOi, starts, ends⟩ := mem_indexes.mp member
    have := normalized.valid iv inOi
    have := fits iv inOi
    exact Finset.mem_Ico.mpr ⟨by omega, by omega⟩
  have := Finset.card_le_card within
  rw [Int.card_Ico] at this
  have : (0 : ℤ) ≤ maxInt := by decide
  omega

theorem foldl_total {oi : OrderedIntervals} (normalized : Normalized oi) (fits : ∀ iv ∈ oi, iv.last < maxInt)
    {count : ℤ} (nonneg : 0 ≤ count) (bounded : count + (indexes oi).card ≤ maxInt) :
    oi.foldl (fun count iv => intAdd count (intAdd (intSub iv.last iv.first) 1)) count = count + (indexes oi).card := by
  induction oi generalizing count with
  | nil => simp
  | cons iv oi ih =>
    obtain ⟨valid, -, normalizedRest⟩ := Normalized.cons_iff.mp normalized
    have ivFits := fits iv List.mem_cons_self
    have grown := card_indexes_cons normalized
    have restNonneg : (0 : ℤ) ≤ (indexes oi).card := Nat.cast_nonneg _
    have size : intAdd (intSub iv.last iv.first) 1 = iv.last + 1 - iv.first := by
      rw [intSub_of_fits (by omega) (by omega), intAdd_of_fits (by omega) (by omega)]
      omega
    rw [List.foldl_cons, size, intAdd_of_fits (by omega) (by omega),
      ih normalizedRest (fun b later => fits b (List.mem_cons_of_mem _ later)) (by omega) (by omega)]
    omega

theorem total_eq_card {oi : OrderedIntervals} (normalized : Normalized oi) (fits : ∀ iv ∈ oi, iv.last < maxInt) :
    oi.total = (indexes oi).card := by
  rw [total, foldl_total normalized fits (le_refl 0) (by simpa using card_indexes_le normalized fits)]
  simp

end OrderedIntervals

/-! ## Writing the intervals -/

/-- The comma-separated pieces `String` writes for one interval. -/
def pieces (v : Interval) : List (List Char) :=
  if v.last > v.first then
    if v.last = intAdd v.first 1 then [itoa v.first, itoa v.last] else [itoa v.first ++ '-' :: itoa v.last]
  else [itoa v.first]

theorem pieces_ne_nil (v : Interval) : pieces v ≠ [] := by
  unfold pieces
  split_ifs <;> simp

theorem comma_not_mem_pieces (v : Interval) : ∀ piece ∈ pieces v, ',' ∉ piece := by
  unfold pieces
  split_ifs <;> simp [comma_not_mem_itoa]

theorem writeInterval_ne_nil (builder : List Char) (v : Interval) : writeInterval builder v ≠ [] := by
  unfold writeInterval
  split_ifs <;> simp [itoa_ne_nil']

theorem writeInterval_eq (builder : List Char) (v : Interval) :
    writeInterval builder v = (if builder.length > 0 then builder ++ [','] else builder) ++ [','].intercalate (pieces v) := by
  unfold writeInterval pieces
  split_ifs <;> simp [List.intercalate_cons_cons]

theorem foldl_writeInterval {builder : List Char} (nonempty : builder ≠ []) (oi : OrderedIntervals) :
    oi.foldl writeInterval builder = [','].intercalate (builder :: oi.flatMap pieces) := by
  induction oi generalizing builder with
  | nil => simp
  | cons v oi ih =>
    have written : writeInterval builder v = [','].intercalate (builder :: pieces v) := by
      rw [writeInterval_eq, if_pos (List.length_pos_iff.mpr nonempty)]
      obtain ⟨piece, rest, split⟩ := List.exists_cons_of_ne_nil (pieces_ne_nil v)
      rw [split, List.intercalate_cons_cons]
    rw [List.foldl_cons, written, ih (written ▸ writeInterval_ne_nil builder v), List.flatMap_cons,
      intercalate_intercalate_cons _ (List.cons_ne_nil _ _), List.cons_append]

theorem toList_string (oi : OrderedIntervals) : oi.string.toList = [','].intercalate (oi.flatMap pieces) := by
  rw [OrderedIntervals.string, String.toList_ofList]
  cases oi with
  | nil => simp
  | cons v oi =>
    have first : writeInterval [] v = [','].intercalate (pieces v) := by simp [writeInterval_eq]
    have nonempty : [','].intercalate (pieces v) ≠ [] := first ▸ writeInterval_ne_nil [] v
    rw [List.foldl_cons, first, foldl_writeInterval nonempty, List.flatMap_cons,
      intercalate_intercalate_cons _ (pieces_ne_nil v)]

example : OrderedIntervals.string [⟨0, 0⟩, ⟨2, 3⟩, ⟨5, 9⟩] = "0,2,3,5-9" := by decide

/-! ## Reading the intervals back -/

theorem splitOn_itoa {n : ℤ} (nonneg : 0 ≤ n) : (itoa n).splitOn '-' = [itoa n] :=
  List.splitOn_eq_singleton (minus_not_mem_itoa nonneg)

theorem splitOn_itoa_range {first last : ℤ} (firstNonneg : 0 ≤ first) (lastNonneg : 0 ≤ last) :
    (itoa first ++ '-' :: itoa last).splitOn '-' = [itoa first, itoa last] := by
  have split := @List.splitOn_intercalate Char [itoa first, itoa last] _ _ '-'
    (by simp [minus_not_mem_itoa firstNonneg, minus_not_mem_itoa lastNonneg]) (by simp)
  simpa [List.intercalate_cons_cons] using split

theorem readIntervals_cons_of_read {completions : ℤ} {result read : List Interval} {intervalStr : List Char}
    (reads : readInterval completions result intervalStr = some read) (rest : List (List Char)) :
    readIntervals completions (intervalStr :: rest) result = readIntervals completions rest read := by
  simp [readIntervals, reads]

section Pieces

variable {completions first : ℤ} (nonneg : 0 ≤ first) (fits : completions ≤ maxInt)
include nonneg fits

theorem readInterval_itoa_apart (below : first < completions) {result : List Interval}
    (apart : ∀ h ∈ result.head?, h.last + 1 < first) :
    readInterval completions result (itoa first) = some (⟨first, first⟩ :: result) := by
  have read := atoi_itoa_of_nonneg nonneg (by unfold maxInt at fits; omega)
  simp only [readInterval, splitOn_itoa nonneg, List.headD_cons, read, readLast, if_neg (not_le.mpr below)]
  cases result with
  | nil => rfl
  | cons h earlier =>
    have := apart h rfl
    simp only [if_neg (show h.last ≠ first - 1 by omega)]

theorem readInterval_itoa_adjacent (below : first < completions) (start : ℤ) (earlier : List Interval) :
    readInterval completions (⟨start, first - 1⟩ :: earlier) (itoa first) = some (⟨start, first⟩ :: earlier) := by
  have read := atoi_itoa_of_nonneg nonneg (by unfold maxInt at fits; omega)
  simp [readInterval, splitOn_itoa nonneg, read, readLast, if_neg (not_le.mpr below)]

theorem readInterval_range_apart {last : ℤ} (ordered : first ≤ last) (below : last < completions)
    {result : List Interval} (apart : ∀ h ∈ result.head?, h.last + 1 < first) :
    readInterval completions result (itoa first ++ '-' :: itoa last) = some (⟨first, last⟩ :: result) := by
  have readFirst := atoi_itoa_of_nonneg nonneg (by unfold maxInt at fits; omega)
  have readLast' := atoi_itoa_of_nonneg (show 0 ≤ last by omega) (by unfold maxInt at fits; omega)
  simp only [readInterval, splitOn_itoa_range nonneg (show 0 ≤ last by omega), List.headD_cons, readFirst,
    readLast, readLast', Except.map, if_neg (not_le.mpr below), if_neg (show ¬first ≥ completions by omega)]
  cases result with
  | nil => rfl
  | cons h earlier =>
    have := apart h rfl
    simp only [if_neg (show h.last ≠ first - 1 by omega)]

end Pieces

theorem readIntervals_pieces_append {completions : ℤ} (fits : completions ≤ maxInt) {v : Interval}
    (valid : 0 ≤ v.first ∧ v.first ≤ v.last) (below : v.last < completions) {result : List Interval}
    (apart : ∀ h ∈ result.head?, h.last + 1 < v.first) (rest : List (List Char)) :
    readIntervals completions (pieces v ++ rest) result = readIntervals completions rest (v :: result) := by
  have next : intAdd v.first 1 = v.first + 1 := intAdd_of_fits (by omega) (by omega)
  have firstBelow : v.first < completions := by omega
  unfold pieces
  rw [next]
  split_ifs with longer adjacent
  · -- two indexes, written `a,b`: the second is merged into the first
    have second : (⟨v.first, v.first⟩ : Interval) = ⟨v.first, v.last - 1⟩ := by rw [adjacent]; simp
    rw [List.cons_append, List.cons_append, List.nil_append,
      readIntervals_cons_of_read (readInterval_itoa_apart valid.1 fits firstBelow apart), second,
      readIntervals_cons_of_read (readInterval_itoa_adjacent (by omega) fits below v.first result)]
  · -- a longer range, written `a-b`
    rw [List.cons_append, List.nil_append,
      readIntervals_cons_of_read (readInterval_range_apart valid.1 fits valid.2 below apart)]
  · -- one index
    obtain ⟨first, last⟩ := v
    obtain rfl : last = first := by simp only at longer valid; omega
    rw [List.cons_append, List.nil_append, readIntervals_cons_of_read (readInterval_itoa_apart valid.1 fits below apart)]

theorem readIntervals_flatMap_pieces {completions : ℤ} (fits : completions ≤ maxInt) {oi : OrderedIntervals}
    (normalized : Normalized oi) (below : ∀ iv ∈ oi, iv.last < completions) {result : List Interval}
    (apart : ∀ h ∈ result.head?, ∀ v ∈ oi, h.last + 1 < v.first) :
    readIntervals completions (oi.flatMap pieces) result = oi.reverse ++ result := by
  induction oi generalizing result with
  | nil => simp [readIntervals]
  | cons v oi ih =>
    obtain ⟨valid, before, normalizedRest⟩ := Normalized.cons_iff.mp normalized
    rw [List.flatMap_cons, readIntervals_pieces_append fits valid (below v List.mem_cons_self)
        (fun h member => apart h member v List.mem_cons_self),
      ih normalizedRest (fun iv later => below iv (List.mem_cons_of_mem _ later))
        (fun h member => by obtain rfl := Option.mem_some_iff.mp member; exact before)]
    simp

theorem readLast_lt {completions first last : ℤ} {limitsStr : List (List Char)}
    (reads : readLast completions first limitsStr = .ok last) (below : first < completions) : last < completions := by
  unfold readLast at reads
  split at reads
  · rename_i lastStr _
    cases read : atoi lastStr with
    | error => simp [read, Except.map] at reads
    | ok n =>
      simp only [read, Except.map, Except.ok.injEq] at reads
      split_ifs at reads <;> omega
  · simp only [Except.ok.injEq] at reads
    omega

theorem readInterval_below {completions : ℤ} {result read : List Interval} {intervalStr : List Char}
    (reads : readInterval completions result intervalStr = some read) (below : ∀ iv ∈ result, iv.last < completions) :
    ∀ iv ∈ read, iv.last < completions := by
  cases readFirst : atoi ((intervalStr.splitOn '-').headD []) with
  | error =>
    -- a corrupted start: the piece is skipped
    simp only [readInterval, readFirst, Option.some.injEq] at reads
    exact reads ▸ below
  | ok first =>
    simp only [readInterval, readFirst] at reads
    split_ifs at reads with stops
    cases ends : readLast completions first (intervalStr.splitOn '-') with
    | error =>
      -- a corrupted end: the piece is skipped
      simp only [ends, Option.some.injEq] at reads
      exact reads ▸ below
    | ok last =>
      have lastBelow := readLast_lt ends (not_le.mp stops)
      simp only [ends] at reads
      -- the piece extends the last interval or starts a new one, both ending at `last`
      cases result with
      | nil =>
        simp only [Option.some.injEq] at reads
        subst reads
        simpa using lastBelow
      | cons lastInterval earlier =>
        dsimp only at reads
        split_ifs at reads
        · -- the last interval is extended to `last`
          simp only [Option.some.injEq] at reads
          subst reads
          intro iv member
          rcases List.mem_cons.mp member with rfl | older
          · exact lastBelow
          · exact below iv (List.mem_cons_of_mem _ older)
        · -- a new interval ends at `last`
          simp only [Option.some.injEq] at reads
          subst reads
          intro iv member
          rcases List.mem_cons.mp member with rfl | older
          · exact lastBelow
          · exact below iv older

theorem readIntervals_below {completions : ℤ} (pieces : List (List Char)) {result : List Interval}
    (below : ∀ iv ∈ result, iv.last < completions) : ∀ iv ∈ readIntervals completions pieces result, iv.last < completions := by
  induction pieces generalizing result with
  | nil => exact below
  | cons intervalStr rest ih =>
    rw [readIntervals]
    split
    · exact below
    · exact ih (readInterval_below ‹_› below)

/-- Writing normalized intervals and reading them back gives the intervals, and whatever text
the status holds, every index read is below `completions`. -/
theorem succeededIndexesFromJob_string (completions : ℤ) (fits : completions ≤ maxInt) :
    (∀ oi : OrderedIntervals, Normalized oi → (∀ iv ∈ oi, iv.last < completions) →
      succeededIndexesFromJob oi.string completions = oi) ∧
    ∀ (completedIndexes : String), ∀ ix ∈ (succeededIndexesFromJob completedIndexes completions).indexes,
      ix < completions := by
  refine ⟨fun oi normalized below => ?_, fun completedIndexes ix member => ?_⟩
  · cases oi with
    | nil => rfl
    | cons v rest =>
      have nonempty : OrderedIntervals.string (v :: rest) ≠ "" := by
        intro empty
        have text := congrArg String.toList empty
        rw [OrderedIntervals.string, String.toList_ofList, List.foldl_cons,
          foldl_writeInterval (writeInterval_ne_nil [] v)] at text
        exact intercalate_cons_ne_nil _ (writeInterval_ne_nil [] v) _ text
      have noComma : ∀ piece ∈ (v :: rest).flatMap pieces, ',' ∉ piece := fun piece member => by
        obtain ⟨w, -, inPieces⟩ := List.mem_flatMap.mp member
        exact comma_not_mem_pieces w piece inPieces
      have somePieces : (v :: rest).flatMap pieces ≠ [] := by simp [pieces_ne_nil]
      rw [succeededIndexesFromJob, if_neg nonempty, toList_string, List.splitOn_intercalate ',' noComma somePieces,
        readIntervals_flatMap_pieces fits normalized below (by simp), List.append_nil, List.reverse_reverse]
  · unfold succeededIndexesFromJob at member
    split_ifs at member
    · simp at member
    · obtain ⟨iv, inRead, -, ends⟩ := OrderedIntervals.mem_indexes.mp member
      have := readIntervals_below _ (by simp) iv (List.mem_reverse.mp inRead)
      omega

theorem succeededIndexesFromJob_string_seven :
    (7 : ℤ) ≤ maxInt ∧
    (∀ oi : OrderedIntervals, Normalized oi → (∀ iv ∈ oi, iv.last < 7) → succeededIndexesFromJob oi.string 7 = oi) ∧
    ∀ (completedIndexes : String), ∀ ix ∈ (succeededIndexesFromJob completedIndexes 7).indexes, ix < 7 :=
  ⟨by decide, succeededIndexesFromJob_string 7 (by decide)⟩

example : succeededIndexesFromJob "0,2,3,5-9,x,12-20" 15 = [⟨0, 0⟩, ⟨2, 3⟩, ⟨5, 9⟩, ⟨12, 14⟩] := by decide

/-- `withOrderedIndexes` keeps normalized intervals normalized and adds the indexes, and `has`
and `total` read normalized intervals as their indexes, when every interval and index ends
below the largest `int`. -/
theorem withOrderedIndexes_has_total {oi : OrderedIntervals} {newIndexes : List ℤ} (normalized : Normalized oi)
    (fits : ∀ iv ∈ oi, iv.last < maxInt) (increasing : newIndexes.Pairwise (· < ·))
    (valid : ∀ ix ∈ newIndexes, 0 ≤ ix ∧ ix < maxInt) :
    Normalized (oi.withOrderedIndexes newIndexes) ∧
      (oi.withOrderedIndexes newIndexes).indexes = oi.indexes ∪ newIndexes.toFinset ∧
      (∀ ix, oi.has ix = true ↔ ix ∈ oi.indexes) ∧ oi.total = oi.indexes.card ∧
      (∀ ix, (oi.withOrderedIndexes newIndexes).has ix = true ↔ ix ∈ (oi.withOrderedIndexes newIndexes).indexes) ∧
      (oi.withOrderedIndexes newIndexes).total = (oi.withOrderedIndexes newIndexes).indexes.card := by
  obtain ⟨merged, mergedFits, union⟩ := OrderedIntervals.withOrderedIndexes_spec normalized fits increasing valid
  exact ⟨merged, union, OrderedIntervals.has_iff normalized, OrderedIntervals.total_eq_card normalized fits,
    OrderedIntervals.has_iff merged, OrderedIntervals.total_eq_card merged mergedFits⟩

theorem withOrderedIndexes_has_total_example :
    Normalized [⟨0, 1⟩, ⟨4, 4⟩] ∧ (∀ iv ∈ [(⟨0, 1⟩ : Interval), ⟨4, 4⟩], iv.last < maxInt) ∧
    [(2 : ℤ), 6].Pairwise (· < ·) ∧ (∀ ix ∈ [(2 : ℤ), 6], 0 ≤ ix ∧ ix < maxInt) ∧
    Normalized (OrderedIntervals.withOrderedIndexes [⟨0, 1⟩, ⟨4, 4⟩] [2, 6]) ∧
      (OrderedIntervals.withOrderedIndexes [⟨0, 1⟩, ⟨4, 4⟩] [2, 6]).indexes =
        OrderedIntervals.indexes [⟨0, 1⟩, ⟨4, 4⟩] ∪ [(2 : ℤ), 6].toFinset ∧
      (∀ ix, OrderedIntervals.has [⟨0, 1⟩, ⟨4, 4⟩] ix = true ↔ ix ∈ OrderedIntervals.indexes [⟨0, 1⟩, ⟨4, 4⟩]) ∧
      OrderedIntervals.total [⟨0, 1⟩, ⟨4, 4⟩] = (OrderedIntervals.indexes [⟨0, 1⟩, ⟨4, 4⟩]).card ∧
      (∀ ix, (OrderedIntervals.withOrderedIndexes [⟨0, 1⟩, ⟨4, 4⟩] [2, 6]).has ix = true ↔
        ix ∈ (OrderedIntervals.withOrderedIndexes [⟨0, 1⟩, ⟨4, 4⟩] [2, 6]).indexes) ∧
      (OrderedIntervals.withOrderedIndexes [⟨0, 1⟩, ⟨4, 4⟩] [2, 6]).total =
        (OrderedIntervals.withOrderedIndexes [⟨0, 1⟩, ⟨4, 4⟩] [2, 6]).indexes.card :=
  ⟨by decide, by decide, by decide, by decide,
    withOrderedIndexes_has_total (by decide) (by decide) (by decide) (by decide)⟩

/-- An interval that ends at the largest `int`: the next index is taken as apart from it, and
its size wraps to a negative count. -/
theorem withOrderedIndexes_maxInt :
    Normalized [⟨0, maxInt⟩] ∧ ¬ Normalized (OrderedIntervals.withOrderedIndexes [⟨0, maxInt⟩] [5]) ∧
      OrderedIntervals.total [⟨0, maxInt⟩] = -2 ^ 63 := by
  decide

end Kubernetes.Controller.Job
