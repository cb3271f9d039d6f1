import Mathlib

/-! Decimal numerals as Go's `strconv` and `strings` read and write them.

Text is a list of characters. `itoa` writes an integer in decimal with a minus sign for a
negative one; `atoi` reads an optional sign and at least one decimal digit into a 64-bit
`int`, as `strconv.Atoi` does on a 64-bit platform (its fast path for short inputs and its
slow path through `ParseInt` accept the same texts and give the same values). `splitN2` is
`strings.SplitN` with a count of 2 and a one-character separator.
-/

set_option autoImplicit false

namespace Kubernetes.Library

/-- `strconv.ErrSyntax` and `strconv.ErrRange`. -/
inductive NumErrorKind where
  | errSyntax
  | errRange
  deriving DecidableEq, Repr

/-- `strconv.NumError`: the function, the text it was given and the reason. -/
structure NumError where
  func : String
  num : List Char
  err : NumErrorKind
  deriving DecidableEq, Repr

def itoa (n : ℤ) : List Char := (toString n).toList

/-- The sign of a numeral and its digits. -/
def splitSign : List Char → Bool × List Char
  | '-' :: rest => (true, rest)
  | '+' :: rest => (false, rest)
  | s => (false, s)

/-- The value of a run of decimal digits. -/
def decimalValue (digits : List Char) : ℕ := digits.foldl (fun n c => 10 * n + (c.toNat - '0'.toNat)) 0

/-- `strconv.Atoi` on a 64-bit platform. -/
def atoi (s : List Char) : Except NumError ℤ :=
  let (negative, digits) := splitSign s
  if digits = [] ∨ digits.any (fun c => !c.isDigit) then .error ⟨"Atoi", s, .errSyntax⟩
  else
    let n : ℤ := if negative then -(decimalValue digits : ℤ) else decimalValue digits
    if n < -2 ^ 63 ∨ 2 ^ 63 ≤ n then .error ⟨"Atoi", s, .errRange⟩ else .ok n

/-- `strconv.ParseInt(s, 10, bitSize)`: the same texts as `atoi`, in range for `bitSize` bits. -/
def parseInt (s : List Char) (bitSize : ℕ) : Except NumError ℤ :=
  let (negative, digits) := splitSign s
  if digits = [] ∨ digits.any (fun c => !c.isDigit) then .error ⟨"ParseInt", s, .errSyntax⟩
  else
    let n : ℤ := if negative then -(decimalValue digits : ℤ) else decimalValue digits
    if n < -2 ^ (bitSize - 1) ∨ 2 ^ (bitSize - 1) ≤ n then .error ⟨"ParseInt", s, .errRange⟩ else .ok n

/-- `strings.SplitN(s, sep, 2)` for a one-character separator. -/
def splitN2 (sep : Char) (s : List Char) : List (List Char) :=
  match s.span (· != sep) with
  | (before, []) => [before]
  | (before, _ :: after) => [before, after]

/-! ## Decimal digits -/

theorem foldl_toDigits (k : ℕ) :
    (Nat.toDigits 10 k).foldl (fun n c => 10 * n + (c.toNat - '0'.toNat)) 0 = k := by
  have digit : ∀ d < 10, (Nat.digitChar d).toNat - '0'.toNat = d := by decide
  induction k using Nat.strongRecOn with
  | _ k ih =>
    by_cases small : k < 10
    · rw [Nat.toDigits_of_lt_base small, List.foldl_cons, List.foldl_nil, digit k small]
      omega
    -- the last digit is appended to the digits of the number divided by ten
    have last : k % 10 < 10 := Nat.mod_lt _ (by decide)
    have split : Nat.toDigits 10 (k / 10) ++ Nat.toDigits 10 (k % 10) = Nat.toDigits 10 k := by
      rw [@Nat.toDigits_append_toDigits 10 (k / 10) (k % 10) (by decide) (by omega) last, Nat.div_add_mod]
    rw [← split, List.foldl_append, ih (k / 10) (by omega), Nat.toDigits_of_lt_base last]
    simp only [List.foldl_cons, List.foldl_nil, digit (k % 10) last]
    omega

theorem toList_toString (k : ℕ) : (toString (k : ℤ)).toList = Nat.toDigits 10 k := by
  show (Nat.repr k).toList = _
  simp [Nat.repr]

theorem itoa_natCast (k : ℕ) : itoa k = Nat.toDigits 10 k := toList_toString k

theorem isDigit_of_mem_itoa {k : ℕ} {c : Char} (member : c ∈ itoa k) : c.isDigit = true := by
  rw [itoa_natCast] at member
  exact Nat.isDigit_of_mem_toDigits (by decide) (by decide) member

theorem not_mem_itoa {k : ℕ} {c : Char} (notDigit : c.isDigit = false) : c ∉ itoa k := fun member => by
  rw [isDigit_of_mem_itoa member] at notDigit
  cases notDigit

theorem minus_not_mem_itoa {n : ℤ} (nonneg : 0 ≤ n) : '-' ∉ itoa n := by
  lift n to ℕ using nonneg
  exact not_mem_itoa (by decide)

theorem comma_not_mem_itoa (n : ℤ) : ',' ∉ itoa n := by
  cases n with
  | ofNat k => exact not_mem_itoa (by decide)
  | negSucc k =>
    have negative : itoa (Int.negSucc k) = '-' :: Nat.toDigits 10 (k + 1) := by
      show ("-" ++ Nat.repr (k + 1)).toList = _
      simp [Nat.repr]
    rw [negative, List.mem_cons, not_or]
    exact ⟨by decide, fun member => by simpa using Nat.isDigit_of_mem_toDigits (by decide) (by decide) member⟩

theorem ne_of_isDigit {c : Char} (digit : c.isDigit = true) : c ≠ ',' ∧ c ≠ '-' ∧ c ≠ '+' := by
  refine ⟨?_, ?_, ?_⟩ <;> rintro rfl <;> simp at digit

theorem itoa_ne_nil (k : ℕ) : itoa k ≠ [] := by
  rw [itoa_natCast]
  exact Nat.toDigits_ne_nil

theorem itoa_ne_nil' (n : ℤ) : itoa n ≠ [] := by
  cases n with
  | ofNat k => exact itoa_ne_nil k
  | negSucc k =>
    show ("-" ++ Nat.repr (k + 1)).toList ≠ []
    simp

theorem splitSign_of_digits {s : List Char} (digits : ∀ c ∈ s, c.isDigit = true) : splitSign s = (false, s) := by
  match s, digits with
  | [], _ => rfl
  | c :: rest, digits =>
    obtain ⟨-, notMinus, notPlus⟩ := ne_of_isDigit (digits c List.mem_cons_self)
    unfold splitSign
    split <;> simp_all

theorem atoi_itoa {k : ℕ} (small : k < 2 ^ 63) : atoi (itoa k) = .ok k := by
  have digits : ∀ c ∈ itoa k, c.isDigit = true := fun _ => isDigit_of_mem_itoa
  have allDigits : ((itoa k).any fun c => !c.isDigit) = false := by
    simpa using digits
  simp only [atoi, splitSign_of_digits digits, itoa_ne_nil, allDigits, false_or, Bool.false_eq_true,
    if_false, decimalValue]
  rw [itoa_natCast, foldl_toDigits]
  rw [if_neg (by omega)]

theorem atoi_itoa_of_nonneg {n : ℤ} (nonneg : 0 ≤ n) (small : n < 2 ^ 63) : atoi (itoa n) = .ok n := by
  lift n to ℕ using nonneg
  exact atoi_itoa (by omega)

theorem atoi_bounds {s : List Char} {n : ℤ} (read : atoi s = .ok n) : -2 ^ 63 ≤ n ∧ n < 2 ^ 63 := by
  rcases signed : splitSign s with ⟨negative, digits⟩
  simp only [atoi, signed] at read
  split_ifs at read
  all_goals simp only [Except.ok.injEq] at read
  all_goals omega

/-! ## Splitting at the first separator -/

theorem span_append_of_not_mem {sep : Char} {before : List Char} (absent : sep ∉ before) (rest : List Char) :
    (before ++ rest).span (· != sep) = (before ++ rest.takeWhile (· != sep), rest.dropWhile (· != sep)) := by
  have kept : ∀ c ∈ before, (c != sep) = true := fun c member =>
    bne_iff_ne.mpr fun same => absent (same ▸ member)
  rw [List.span_eq_takeWhile_dropWhile, List.takeWhile_append_of_pos kept, List.dropWhile_append_of_pos kept]

theorem splitN2_append {sep : Char} {before after : List Char} (absent : sep ∉ before) :
    splitN2 sep (before ++ sep :: after) = [before, after] := by
  have cut := span_append_of_not_mem absent (sep :: after)
  simp only [List.takeWhile_cons, List.dropWhile_cons, bne_self_eq_false, Bool.false_eq_true, if_false,
    List.append_nil] at cut
  rw [splitN2, cut]

section Join

variable {α : Type} (sep : List α)

theorem intercalate_append_cons (front back : List α) (rest : List (List α)) :
    sep.intercalate ((front ++ back) :: rest) = front ++ sep.intercalate (back :: rest) := by
  cases rest with
  | nil => simp
  | cons next rest => simp [List.intercalate_cons_cons]

theorem intercalate_cons_ne_nil {first : List α} (nonempty : first ≠ []) (rest : List (List α)) :
    sep.intercalate (first :: rest) ≠ [] := by
  cases rest with
  | nil => simpa using nonempty
  | cons next rest => simp [List.intercalate_cons_cons, nonempty]

theorem intercalate_intercalate_cons {group : List (List α)} (nonempty : group ≠ []) (rest : List (List α)) :
    sep.intercalate (sep.intercalate group :: rest) = sep.intercalate (group ++ rest) := by
  induction group with
  | nil => exact absurd rfl nonempty
  | cons piece group ih =>
    cases group with
    | nil => simp
    | cons next group =>
      rw [List.intercalate_cons_cons, List.append_assoc, intercalate_append_cons, intercalate_append_cons,
        ih (List.cons_ne_nil _ _), List.cons_append, List.cons_append, List.cons_append, List.intercalate_cons_cons,
        List.append_assoc]

end Join

end Kubernetes.Library
