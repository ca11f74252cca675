import IpServer.Basic
import Mathlib.Algebra.Order.Ring.Int
import Mathlib.Data.List.DropRight

/-!
# Conversions

Machine integers are integers here, so the conversions between their types,
which keep the value modulo the width, are written out; and so are the
conversions of strings to numbers that the source uses, which read the longest
prefix that is a number and throw when there is none or when it is out of range.
-/

namespace IpServer

/-! ## Between integer types -/

/-- Conversion to `uint16_t`. -/
def toUInt16 (n : ℤ) : ℤ := n % 2 ^ 16

/-- Conversion to `int`. -/
def toInt32 (n : ℤ) : ℤ := Int.bmod n (2 ^ 32)

/-- Conversion to `size_t`. -/
def toSize (n : ℤ) : ℤ := n % 2 ^ 64

theorem toUInt16_eq_self {n : ℤ} : toUInt16 n = n ↔ 0 ≤ n ∧ n < 2 ^ 16 := by
  rw [toUInt16]
  omega

theorem toInt32_eq_self {n : ℤ} : toInt32 n = n ↔ -2 ^ 31 ≤ n ∧ n < 2 ^ 31 := by
  rw [toInt32, Int.bmod_def]
  split <;> omega

theorem toSize_eq_self {n : ℤ} : toSize n = n ↔ 0 ≤ n ∧ n < 2 ^ 64 := by
  rw [toSize]
  omega

/-! ## From strings -/

/-- `isspace`, in the C locale. -/
def isSpace (c : Char) : Bool := c = ' ' || (9 ≤ c.toNat && c.toNat ≤ 13)

/-- The number that the leading decimal digits denote, if there are any. -/
def leadingNat (cs : List Char) : Option ℕ :=
  match cs.takeWhile Char.isDigit with
  | [] => none
  | ds => some (ds.foldl (fun n d => 10 * n + (d.toNat - '0'.toNat)) 0)

/-- The longest prefix that is an integer, after white space: the sign and the magnitude. -/
def leadingInt (s : String) : Option (Bool × ℕ) :=
  match s.toList.dropWhile isSpace with
  | '+' :: cs => (leadingNat cs).map (false, ·)
  | '-' :: cs => (leadingNat cs).map (true, ·)
  | cs => (leadingNat cs).map (false, ·)

/-- A magnitude with its sign. -/
def withSign (negative : Bool) (magnitude : ℕ) : ℤ := if negative then -magnitude else magnitude

/-- A signed conversion into `[-bound, bound)`, named `name` in its exceptions. -/
def stringToSigned (name : String) (bound : ℤ) (s : String) : Except Exn ℤ :=
  match leadingInt s with
  | none => .error (.invalidArgument name)
  | some (negative, magnitude) =>
    let n := withSign negative magnitude
    if -bound ≤ n ∧ n < bound then .ok n else .error (.std name)

/-- `std::stoi`. -/
def stoi (s : String) : Except Exn ℤ := stringToSigned "stoi" (2 ^ 31) s

/-- `std::stoll`. -/
def stoll (s : String) : Except Exn ℤ := stringToSigned "stoll" (2 ^ 63) s

/-- `std::stoull`: a number with a minus sign is negated in the unsigned type. -/
def stoull (s : String) : Except Exn ℤ :=
  match leadingInt s with
  | none => .error (.invalidArgument "stoull")
  | some (negative, magnitude) =>
    if magnitude < 2 ^ 64 then .ok (toSize (withSign negative magnitude))
    else .error (.std "stoull")

theorem natAbs_withSign (negative : Bool) (magnitude : ℕ) :
    (withSign negative magnitude).natAbs = magnitude := by
  cases negative with
  | true => exact (Int.natAbs_neg _).trans (Int.natAbs_natCast _)
  | false => exact Int.natAbs_natCast _

/-- On a number that is not negative, the signed and the unsigned conversion agree. -/
theorem stoull_of_stoll {s : String} {n : ℤ} (h : stoll s = .ok n) (hn : 0 ≤ n) :
    stoull s = .ok n := by
  rw [stoll, stringToSigned] at h
  rw [stoull]
  cases hlead : leadingInt s with
  | none =>
    rw [hlead] at h
    cases h
  | some lead =>
    obtain ⟨negative, magnitude⟩ := lead
    have hmagnitude := natAbs_withSign negative magnitude
    rw [hlead] at h
    simp only at h ⊢
    split at h
    · next hrange =>
      obtain rfl := Except.ok.inj h
      rw [if_pos (by omega), toSize_eq_self.2 ⟨hn, by omega⟩]
    · cases h

/-! ### Numerals -/

/-- The number that decimal digits denote. -/
def decimal (digits : List Char) : ℕ :=
  digits.foldl (fun n d => 10 * n + (d.toNat - '0'.toNat)) 0

/-- A text is a numeral, as a whole: a sign, if any, and decimal digits. -/
def Denotes (s : String) (n : ℤ) : Prop :=
  ∃ digits, digits ≠ [] ∧ (∀ d ∈ digits, d.isDigit = true) ∧
    ((s.toList = digits ∨ s.toList = '+' :: digits) ∧ n = decimal digits ∨
      s.toList = '-' :: digits ∧ n = -decimal digits)

/-- The number that a signed conversion reads, whether or not it is in range. -/
def leadingNumber (s : String) : Option ℤ := (leadingInt s).map fun lead => withSign lead.1 lead.2

theorem leadingNat_eq {digits : List Char} (hne : digits ≠ [])
    (hdigits : ∀ d ∈ digits, d.isDigit = true) : leadingNat digits = some (decimal digits) := by
  rw [leadingNat, List.takeWhile_eq_self_iff.2 hdigits]
  obtain ⟨d, ds, rfl⟩ := List.exists_cons_of_ne_nil hne
  rfl

theorem isSpace_eq_false_of_isDigit {d : Char} (h : d.isDigit = true) : isSpace d = false := by
  have hmin : 48 ≤ d.toNat := (Char.isDigit_iff_toNat.1 h).1
  rw [isSpace, Bool.or_eq_false_iff, decide_eq_false_iff_not, Bool.and_eq_false_iff]
  refine ⟨?_, .inr (decide_eq_false (by omega))⟩
  rintro rfl
  exact absurd h (by decide)

/-- What a numeral denotes is read. -/
theorem leadingNumber_of_denotes {s : String} {n : ℤ} (h : Denotes s n) :
    leadingNumber s = some n := by
  obtain ⟨digits, hne, hdigits, hs⟩ := h
  have hnat := leadingNat_eq hne hdigits
  rw [leadingNumber, leadingInt]
  rcases hs with ⟨hs | hs, rfl⟩ | ⟨hs, rfl⟩
  · obtain ⟨d, ds, rfl⟩ := List.exists_cons_of_ne_nil hne
    have hd : d.isDigit = true := hdigits d List.mem_cons_self
    rw [hs, List.dropWhile_cons_of_neg (by rw [isSpace_eq_false_of_isDigit hd]; decide)]
    split
    · next heq =>
      obtain ⟨rfl, -⟩ := List.cons.inj heq
      exact absurd hd (by decide)
    · next heq =>
      obtain ⟨rfl, -⟩ := List.cons.inj heq
      exact absurd hd (by decide)
    · rw [hnat]
      rfl
  · rw [hs, List.dropWhile_cons_of_neg (by decide)]
    simp only [hnat]
    rfl
  · rw [hs, List.dropWhile_cons_of_neg (by decide)]
    simp only [hnat]
    rfl

theorem stoi_eq (s : String) : stoi s =
    match leadingNumber s with
    | none => .error (.invalidArgument "stoi")
    | some n => if -2 ^ 31 ≤ n ∧ n < 2 ^ 31 then .ok n else .error (.std "stoi") := by
  rw [stoi, stringToSigned, leadingNumber]
  cases leadingInt s with
  | none => rfl
  | some lead => rfl

/-- `parseBoolString`. -/
def parseBoolString (value : String) : Bool := value = "true" || value = "1"

/-! ## Parts of strings -/

/-- `s.starts_with(start)`. -/
def startsWith (s start : String) : Bool := start.toList.isPrefixOf s.toList

/-- `s.substr(pos)`. -/
def substrFrom (s : String) (pos : ℕ) : String := String.ofList (s.toList.drop pos)

/-- What is left of a text without the characters of `blanks` at both ends, if anything. -/
def trimmed (blanks s : List Char) : Option (List Char) :=
  match s.dropWhile (blanks.contains ·) with
  | [] => none
  | s => some (s.rdropWhile (blanks.contains ·))

/-- A text without any of the `blanks` at either end. -/
def Stripped (blanks s : List Char) : Prop :=
  (∀ c ∈ s.head?, c ∉ blanks) ∧ ∀ c ∈ s.getLast?, c ∉ blanks

instance (blanks s : List Char) : Decidable (Stripped blanks s) :=
  @instDecidableAnd _ _ (Option.decidableForallMem _) (Option.decidableForallMem _)

/-- What is dropped at the end leaves the first character alone, if it is to be kept. -/
theorem exists_rdropWhile_cons {p : Char → Bool} {c : Char} (hc : p c = false) (cs : List Char) :
    ∃ text, (c :: cs).rdropWhile p = c :: text := by
  obtain ⟨dropped, hdropped⟩ := List.rdropWhile_prefix p (c :: cs)
  cases hrest : (c :: cs).rdropWhile p with
  | nil =>
    have hall := List.rdropWhile_eq_nil_iff.1 hrest c List.mem_cons_self
    rw [hc] at hall
    cases hall
  | cons c' text =>
    rw [hrest, List.cons_append] at hdropped
    obtain ⟨rfl, -⟩ := List.cons_eq_cons.1 hdropped
    exact ⟨text, rfl⟩

/-- What is trimmed is not empty, and has no blanks at its ends. -/
theorem stripped_of_trimmed {blanks s t : List Char} (h : trimmed blanks s = some t) :
    t ≠ [] ∧ Stripped blanks t := by
  rw [trimmed] at h
  split at h
  · cases h
  · next hne =>
    obtain rfl := Option.some_inj.1 h
    obtain ⟨c, cs, hdrop⟩ := List.exists_cons_of_ne_nil hne
    have hc : blanks.contains c = false := by
      have hhead := List.head?_dropWhile_not (blanks.contains ·) s
      rw [hdrop] at hhead
      exact hhead
    obtain ⟨text, htext⟩ := @exists_rdropWhile_cons (blanks.contains ·) c hc cs
    have hlast := List.rdropWhile_last_not (blanks.contains ·) (c :: cs)
      (by rw [htext]; exact List.cons_ne_nil _ _)
    rw [hdrop]
    refine ⟨by rw [htext]; exact List.cons_ne_nil _ _, fun d hd => ?_, fun d hd => ?_⟩
    · rw [htext, List.head?_cons, Option.mem_some_iff] at hd
      rw [← hd, ← List.contains_iff_mem, hc]
      exact Bool.false_ne_true
    · obtain ⟨hne', rfl⟩ := List.mem_getLast?_eq_getLast hd
      rw [← List.contains_iff_mem]
      exact hlast

/-- A text without blanks at its ends is what is left of it. -/
theorem trimmed_of_stripped {blanks s : List Char} (hne : s ≠ []) (h : Stripped blanks s) :
    trimmed blanks s = some s := by
  obtain ⟨c, cs, rfl⟩ := List.exists_cons_of_ne_nil hne
  have hc : ¬blanks.contains c = true := fun hmem =>
    h.1 c rfl (List.contains_iff_mem.1 hmem)
  rw [trimmed, List.dropWhile_cons_of_neg hc]
  refine congrArg some (List.rdropWhile_eq_self_iff.2 fun hne hlast => ?_)
  exact h.2 _ (List.getLast?_eq_some_getLast hne) (List.contains_iff_mem.1 hlast)

theorem startsWith_iff {s start : String} :
    startsWith s start = true ↔ s = start ++ substrFrom s start.length := by
  rw [startsWith, List.isPrefixOf_iff_prefix, substrFrom, ← String.toList_inj, String.toList_append,
    String.toList_ofList, ← String.length_toList]
  constructor
  · rintro ⟨rest, hrest⟩
    rw [← hrest, List.drop_left]
  · intro h
    exact ⟨_, h.symm⟩

theorem startsWith_append (s t : String) : startsWith (s ++ t) s = true := by
  rw [startsWith, List.isPrefixOf_iff_prefix, String.toList_append]
  exact List.prefix_append _ _

theorem substrFrom_append (s t : String) : substrFrom (s ++ t) s.length = t := by
  rw [substrFrom, String.toList_append, ← String.length_toList, List.drop_left,
    String.ofList_toList]

end IpServer
