import Mathlib
import Kubernetes.Library.Strconv

/-! The Linux CPU list format of `pkg/kubelet/cm/cpuset/cpuset.go`.

`String` writes the sorted CPUs as comma-separated runs, a run of one CPU as its number and a
longer run as `start-end`; `Parse` splits at the commas, splits each piece at its first dash
and adds the CPUs of every range with a loop over a 64-bit `int`. That loop can run without
end, so it is modelled with fuel: `none` is a loop still running when the fuel is spent.
-/

set_option autoImplicit false

namespace Kubernetes.Kubelet.Cpuset

open Kubernetes.Library

/-- `CPUSet`: the set of its elements, Go `int`s. -/
structure CPUSet where
  elems : Finset ℤ
  deriving DecidableEq

/-- The `rng` of `CPUSet.String`. -/
structure Rng where
  start : ℤ
  «end» : ℤ
  deriving DecidableEq, Repr

/-- One iteration of the loop of `String` over the sorted elements: extend the last range by
an adjacent element or start a new range. The ranges before the last are kept apart. -/
def extendRanges (ranges : List Rng × Rng) (elem : ℤ) : List Rng × Rng :=
  if elem = ranges.2.«end» + 1 then (ranges.1, { ranges.2 with «end» := elem })
  else (ranges.1 ++ [ranges.2], ⟨elem, elem⟩)

/-- The ranges of the sorted elements `first :: rest`. -/
def collectRanges (first : ℤ) (rest : List ℤ) : List Rng :=
  let (done, last) := rest.foldl extendRanges ([], ⟨first, first⟩)
  done ++ [last]

def formatRange (r : Rng) : List Char :=
  if r.start = r.«end» then itoa r.start else itoa r.start ++ '-' :: itoa r.«end»

namespace CPUSet

/-- `ToSlice`: the elements in increasing order. -/
def toSlice (s : CPUSet) : List ℤ := s.elems.sort

def string (s : CPUSet) : String :=
  match s.toSlice with
  | [] => ""
  | first :: rest =>
    let written := (collectRanges first rest).foldl (fun result r => result ++ formatRange r ++ [',']) []
    -- strings.TrimRight(result.String(), ",")
    String.ofList (written.reverse.dropWhile (· == ',')).reverse

end CPUSet

inductive ParseError where
  | num (e : NumError)
  /-- "invalid range %q (%d >= %d)". -/
  | invalidRange (r : List Char) (start «end» : ℤ)
  deriving DecidableEq

/-- `for e := start; e <= end; e++ { b.Add(e) }` with `e` a 64-bit `int`, for at most `fuel`
tests of the condition. -/
def addRange : ℕ → Int64 → Int64 → Finset ℤ → Option (Finset ℤ)
  | 0, _, _, _ => none
  | fuel + 1, e, last, b => if e ≤ last then addRange fuel (e + 1) last (insert e.toInt b) else some b

/-- One piece of the list: a single CPU, or a range whose bounds are read before they are
compared. `SplitN` gives one or two pieces; the source does nothing for any other count. -/
def parseRange (fuel : ℕ) (b : Finset ℤ) (r : List Char) : Option (Except ParseError (Finset ℤ)) :=
  match splitN2 '-' r with
  | [elem] =>
    match atoi elem with
    | .error e => some (.error (.num e))
    | .ok elem => some (.ok (insert elem b))
  | [first, second] =>
    match atoi first with
    | .error e => some (.error (.num e))
    | .ok start =>
      match atoi second with
      | .error e => some (.error (.num e))
      | .ok last =>
        if start > last then some (.error (.invalidRange r start last))
        else (addRange fuel (Int64.ofInt start) (Int64.ofInt last) b).map .ok
  | _ => some (.ok b)

/-- The loop over the pieces, which returns at the first error. -/
def parseRanges (fuel : ℕ) : List (List Char) → Finset ℤ → Option (Except ParseError (Finset ℤ))
  | [], b => some (.ok b)
  | r :: rs, b =>
    match parseRange fuel b r with
    | some (.ok b) => parseRanges fuel rs b
    | other => other

/-- `Parse`, with every range loop given `fuel` tests of its condition. -/
def parse (fuel : ℕ) (s : String) : Option (Except ParseError CPUSet) :=
  if s = "" then some (.ok ⟨∅⟩)
  else (parseRanges fuel (s.toList.splitOn ',') ∅).map fun result => result.map CPUSet.mk

/-! ## The range loop -/

theorem addRange_maxValue (fuel : ℕ) (e : Int64) (b : Finset ℤ) : addRange fuel e Int64.maxValue b = none := by
  induction fuel generalizing e b with
  | zero => rfl
  | succ fuel ih => simp only [addRange, Int64.le_maxValue, if_true, ih]

/-! ## Parsing pieces -/

/-- `ranges` lists the maximal runs of `cpus` in increasing order: each range is in order, the
ranges cover exactly the set, and each range starts more than one past the end of every range
before it, so no two could be joined. -/
structure Runs (cpus : Finset ℤ) (ranges : List Rng) : Prop where
  ordered : ∀ r ∈ ranges, r.start ≤ r.«end»
  separated : ranges.Pairwise fun r r' => r.«end» + 1 < r'.start
  covers : ∀ cpu, cpu ∈ cpus ↔ ∃ r ∈ ranges, r.start ≤ cpu ∧ cpu ≤ r.«end»

/-- A maximal run of a set: a range in order inside the set that cannot be extended at either end. -/
structure MaximalRun (cpus : Finset ℤ) (r : Rng) : Prop where
  ordered : r.start ≤ r.«end»
  inside : ∀ cpu, r.start ≤ cpu → cpu ≤ r.«end» → cpu ∈ cpus
  before : r.start - 1 ∉ cpus
  after : r.«end» + 1 ∉ cpus

theorem rel_or_rel_of_pairwise {α : Type} {R : α → α → Prop} {l : List α} (pairwise : l.Pairwise R)
    {a b : α} (first : a ∈ l) (second : b ∈ l) (distinct : a ≠ b) : R a b ∨ R b a := by
  induction l with
  | nil => cases first
  | cons head tail ih =>
    obtain ⟨fromHead, pairwise⟩ := List.pairwise_cons.mp pairwise
    rcases List.mem_cons.mp first with rfl | inTail
    · rcases List.mem_cons.mp second with rfl | inTail'
      · exact absurd rfl distinct
      · exact .inl (fromHead b inTail')
    · rcases List.mem_cons.mp second with rfl | inTail'
      · exact .inr (fromHead a inTail)
      · exact ih pairwise inTail inTail'

theorem Runs.mem_iff {cpus : Finset ℤ} {ranges : List Rng} (runs : Runs cpus ranges) (r : Rng) :
    r ∈ ranges ↔ MaximalRun cpus r := by
  obtain ⟨ordered, separated, covers⟩ := runs
  -- a member of the list cannot be extended: a neighbouring CPU would lie in another member
  have maximal : ∀ r ∈ ranges, MaximalRun cpus r := by
    intro r member
    have rOrdered := ordered r member
    refine ⟨rOrdered, fun cpu fromStart toEnd => (covers cpu).mpr ⟨r, member, fromStart, toEnd⟩, ?_, ?_⟩
    all_goals
      intro inSet
      obtain ⟨r', member', fromStart', toEnd'⟩ := (covers _).mp inSet
      have distinct : r ≠ r' := by rintro rfl; omega
      have := ordered r' member'
      rcases rel_or_rel_of_pairwise separated member member' distinct with apart | apart <;> omega
  refine ⟨maximal r, fun run => ?_⟩
  -- the member holding the start of a maximal run is that run
  obtain ⟨r', member', fromStart', toEnd'⟩ := (covers r.start).mp (run.inside _ (Int.le_refl _) run.ordered)
  have maximal' := maximal r' member'
  have runOrdered := run.ordered
  have sameStart : r'.start = r.start := by
    by_contra differs
    exact run.before ((covers _).mpr ⟨r', member', by omega, by omega⟩)
  have sameEnd : r'.«end» = r.«end» := by
    rcases Int.lt_trichotomy r'.«end» r.«end» with shorter | same | longer
    · exact absurd (run.inside _ (by omega) (by omega)) maximal'.after
    · exact same
    · exact absurd ((covers _).mpr ⟨r', member', by omega, by omega⟩) run.after
  rcases r with ⟨start, last⟩
  rcases r' with ⟨start', last'⟩
  dsimp only at sameStart sameEnd
  subst sameStart sameEnd
  exact member'

theorem Runs.unique {cpus : Finset ℤ} {ranges ranges' : List Rng} (runs : Runs cpus ranges)
    (runs' : Runs cpus ranges') : ranges = ranges' := by
  have sameMembers : ∀ r, r ∈ ranges ↔ r ∈ ranges' := fun r => by rw [runs.mem_iff, runs'.mem_iff]
  have nodup : ∀ {ranges : List Rng}, Runs cpus ranges → ranges.Nodup := fun runs =>
    runs.separated.imp_of_mem fun member _ apart same => by
      subst same
      have := runs.ordered _ member
      omega
  refine List.Perm.eq_of_pairwise (fun r r' member member' apart apart' => ?_) runs.separated runs'.separated
    ((List.perm_ext_iff_of_nodup (nodup runs) (nodup runs')).mpr sameMembers)
  have := runs.ordered r member
  have := runs'.ordered r' member'
  omega

theorem parse_of_comma_not_mem {r : List Char} (nonempty : r ≠ []) (noComma : ',' ∉ r) (fuel : ℕ) :
    parse fuel (String.ofList r) = (parseRange fuel ∅ r).map fun result => result.map CPUSet.mk := by
  rw [parse, if_neg (by simpa [String.ofList_eq_empty_iff] using nonempty), String.toList_ofList,
    List.splitOn_eq_singleton noComma, parseRanges]
  rcases parseRange fuel ∅ r with _ | ⟨e | b⟩ <;> rfl

theorem parseRange_to_maxInt {start : ℕ} (fits : start < 2 ^ 63) (fuel : ℕ) (b : Finset ℤ) :
    parseRange fuel b (itoa start ++ '-' :: itoa (2 ^ 63 - 1)) = none := by
  have top : itoa (2 ^ 63 - 1) = itoa ((2 ^ 63 - 1 : ℕ) : ℤ) := congrArg itoa (by omega)
  have maxInt : Int64.ofInt ((2 ^ 63 - 1 : ℕ) : ℤ) = Int64.maxValue := by decide
  unfold parseRange
  rw [splitN2_append (not_mem_itoa (by decide)), top]
  simp only [atoi_itoa fits, atoi_itoa (show 2 ^ 63 - 1 < 2 ^ 63 by decide)]
  rw [if_neg (by omega), maxInt, addRange_maxValue]
  rfl

/-! ## Writing the ranges -/

/-- `Parse` of a range from any non-negative `int` up to the largest `int` never returns: the
loop counter wraps from the largest `int` to the smallest, which is again not above the end. -/
theorem parse_range_to_maxInt_never_returns (start : ℕ) (fits : start < 2 ^ 63) (fuel : ℕ) :
    parse fuel (String.ofList (itoa start ++ '-' :: itoa (2 ^ 63 - 1))) = none := by
  rw [parse_of_comma_not_mem (by simp) (by simp [comma_not_mem_itoa]), parseRange_to_maxInt fits]
  rfl

theorem parse_zero_to_maxInt_never_returns :
    (0 : ℕ) < 2 ^ 63 ∧ ∀ fuel, parse fuel "0-9223372036854775807" = none := by
  have text : "0-9223372036854775807" = String.ofList (itoa ((0 : ℕ) : ℤ) ++ '-' :: itoa (2 ^ 63 - 1)) := by
    decide +kernel
  exact ⟨by decide, fun fuel => text ▸ parse_range_to_maxInt_never_returns 0 (by decide) fuel⟩

end Kubernetes.Kubelet.Cpuset
