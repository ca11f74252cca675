import IpServer.Database
import IpServer.Validation
import Mathlib.Data.List.Basic

/-!
# MAC addresses

`isValidMacFormat` looks at every character on its own, by its position; the OUI database
drops whatever is no hexadecimal digit, and counts what is left. Both are compared with how
an address is spelled: six pairs of digits, with a separator between two of them, or none
(`Spells`).

* `isValidMacFormat_iff`: what is accepted; the separators need not be the same.
* `documented_iff`: when this is what the documentation says.
* `OUIDatabase.lookup_of_valid`: the database takes an address that is accepted for the same
  six bytes, and answers for it as for any other spelling of them.
-/

namespace IpServer

/-! ## Spellings -/

/-- Pairs of characters one after the other, with separators as long as there are any. -/
def spelled : List (Char × Char) → List Char → List Char
  | [], _ => []
  | (a, b) :: pairs, [] => a :: b :: spelled pairs []
  | (a, b) :: pairs, sep :: seps => a :: b :: sep :: spelled pairs seps

/-- The digits of pairs. -/
def digitsOf (pairs : List (Char × Char)) : List Char := pairs.flatMap fun p => [p.1, p.2]

/-- A text is six pairs of hexadecimal digits, with some separators. -/
structure Spells (mac : String) (pairs : List (Char × Char)) (seps : List Char) : Prop where
  length_eq : pairs.length = 6
  isHex_of_mem : ∀ c ∈ digitsOf pairs, isHex c = true
  toList_eq : mac.toList = spelled pairs seps

/-- A separator. -/
def IsSeparator (c : Char) : Prop := c = ':' ∨ c = '-'

/-- The separators that are accepted: five, of either kind, or none. -/
def Separates (seps : List Char) : Prop :=
  seps = [] ∨ seps.length = 5 ∧ ∀ sep ∈ seps, IsSeparator sep

/-- The documented formats: the separators are all the same. -/
def Documented (mac : String) : Prop :=
  ∃ pairs seps, Spells mac pairs seps ∧
    (seps = List.replicate 5 ':' ∨ seps = List.replicate 5 '-' ∨ seps = [])

/-- A text in which separators of both kinds occur. -/
def Mixed (mac : String) : Prop :=
  ∃ pairs seps, Spells mac pairs seps ∧ seps.length = 5 ∧ (∀ sep ∈ seps, IsSeparator sep) ∧
    ':' ∈ seps ∧ '-' ∈ seps

variable {mac : String} {pairs pairs' : List (Char × Char)} {seps seps' cs : List Char}

theorem digitsOf_cons (a b : Char) (pairs : List (Char × Char)) :
    digitsOf ((a, b) :: pairs) = a :: b :: digitsOf pairs := rfl

theorem length_digitsOf (pairs : List (Char × Char)) :
    (digitsOf pairs).length = 2 * pairs.length := by
  induction pairs with
  | nil => rfl
  | cons p pairs ih =>
    rw [digitsOf_cons, List.length_cons, List.length_cons, ih, List.length_cons]
    omega

theorem spelled_nil (pairs : List (Char × Char)) : spelled pairs [] = digitsOf pairs := by
  induction pairs with
  | nil => rfl
  | cons p pairs ih => rw [spelled, ih, digitsOf_cons]

theorem length_spelled (h : seps.length < pairs.length) :
    (spelled pairs seps).length = 2 * pairs.length + seps.length := by
  induction pairs generalizing seps with
  | nil => cases h
  | cons p pairs ih =>
    rcases seps with _ | ⟨sep, seps⟩
    · rw [spelled_nil, length_digitsOf]
      rfl
    · rw [spelled, List.length_cons, List.length_cons, List.length_cons,
        ih (Nat.lt_of_succ_lt_succ h), List.length_cons, List.length_cons]
      omega

theorem mem_digitsOf {p : Char × Char} (h : p ∈ pairs) :
    p.1 ∈ digitsOf pairs ∧ p.2 ∈ digitsOf pairs :=
  ⟨List.mem_flatMap.2 ⟨p, h, List.mem_cons_self⟩,
    List.mem_flatMap.2 ⟨p, h, List.mem_cons_of_mem _ List.mem_cons_self⟩⟩

/-- The digits can be told from the separators. -/
theorem filter_spelled_digits {P : Char → Bool} (hdigits : ∀ c ∈ digitsOf pairs, P c = true)
    (hseps : ∀ sep ∈ seps, P sep = false) : (spelled pairs seps).filter P = digitsOf pairs := by
  induction pairs generalizing seps with
  | nil => rfl
  | cons p pairs ih =>
    rw [digitsOf_cons] at hdigits ⊢
    obtain ⟨ha, hdigits⟩ := List.forall_mem_cons.1 hdigits
    obtain ⟨hb, hdigits⟩ := List.forall_mem_cons.1 hdigits
    rcases seps with _ | ⟨sep, seps⟩
    · rw [spelled, List.filter_cons_of_pos ha, List.filter_cons_of_pos hb, ih hdigits hseps]
    · obtain ⟨hsep, hseps⟩ := List.forall_mem_cons.1 hseps
      rw [spelled, List.filter_cons_of_pos ha, List.filter_cons_of_pos hb,
        List.filter_cons_of_neg (by rw [hsep]; exact Bool.false_ne_true), ih hdigits hseps]

/-- The separators can be told from the digits. -/
theorem filter_spelled_seps {P : Char → Bool} (hdigits : ∀ c ∈ digitsOf pairs, P c = false)
    (hseps : ∀ sep ∈ seps, P sep = true) (hle : seps.length ≤ pairs.length) :
    (spelled pairs seps).filter P = seps := by
  induction pairs generalizing seps with
  | nil =>
    obtain rfl := List.eq_nil_of_length_eq_zero (Nat.le_zero.1 hle)
    rfl
  | cons p pairs ih =>
    rw [digitsOf_cons] at hdigits
    obtain ⟨ha, hdigits⟩ := List.forall_mem_cons.1 hdigits
    obtain ⟨hb, hdigits⟩ := List.forall_mem_cons.1 hdigits
    have ha' : ¬P p.1 = true := by rw [ha]; exact Bool.false_ne_true
    have hb' : ¬P p.2 = true := by rw [hb]; exact Bool.false_ne_true
    rcases seps with _ | ⟨sep, seps⟩
    · rw [spelled, List.filter_cons_of_neg ha', List.filter_cons_of_neg hb',
        ih hdigits hseps (Nat.zero_le _)]
    · obtain ⟨hsep, hseps⟩ := List.forall_mem_cons.1 hseps
      rw [spelled, List.filter_cons_of_neg ha', List.filter_cons_of_neg hb',
        List.filter_cons_of_pos hsep, ih hdigits hseps (Nat.le_of_succ_le_succ hle)]

/-! ## What is accepted -/

theorem IsSeparator.isHex_eq {c : Char} (h : IsSeparator c) : isHex c = false := by
  rcases h with rfl | rfl
  · decide
  · decide

theorem Separates.isSeparator (h : Separates seps) : ∀ sep ∈ seps, IsSeparator sep := by
  rcases h with rfl | ⟨-, h⟩
  · exact List.forall_mem_nil _
  · exact h

theorem Separates.length_le (h : Separates seps) : seps.length ≤ 6 := by
  rcases h with rfl | ⟨h, -⟩
  · exact Nat.zero_le _
  · omega

/-- The loop takes a pair of digits and a separator at a time. -/
theorem isSeparated_cons (k : ℕ) (a b c : Char) (cs : List Char) :
    isSeparated (3 * k) (a :: b :: c :: cs) = true ↔
      (isHex a = true ∧ isHex b = true) ∧ IsSeparator c ∧ isSeparated (3 * (k + 1)) cs = true := by
  have h₀ : ¬3 * k % 3 = 2 := by omega
  have h₁ : ¬(3 * k + 1) % 3 = 2 := by omega
  have h₂ : (3 * k + 1 + 1) % 3 = 2 := by omega
  rw [isSeparated, if_neg h₀, isSeparated, if_neg h₁, isSeparated, if_pos h₂, IsSeparator]
  grind

theorem isSeparated_pair (k : ℕ) (a b : Char) :
    isSeparated (3 * k) [a, b] = true ↔ isHex a = true ∧ isHex b = true := by
  have h₀ : ¬3 * k % 3 = 2 := by omega
  have h₁ : ¬(3 * k + 1) % 3 = 2 := by omega
  rw [isSeparated, if_neg h₀, isSeparated, if_neg h₁, isSeparated]
  grind

/-- What the loop accepts is pairs of digits, separated. -/
theorem exists_spelled_of_isSeparated {n k : ℕ} (hlength : cs.length = 3 * n + 2)
    (h : isSeparated (3 * k) cs = true) : ∃ pairs seps, pairs.length = n + 1 ∧
      (∀ c ∈ digitsOf pairs, isHex c = true) ∧ seps.length = n ∧
      (∀ sep ∈ seps, IsSeparator sep) ∧ cs = spelled pairs seps := by
  induction n generalizing k cs with
  | zero =>
    obtain ⟨a, b, rfl⟩ := List.length_eq_two.1 hlength
    obtain ⟨ha, hb⟩ := (isSeparated_pair k a b).1 h
    refine ⟨[(a, b)], [], rfl, ?_, rfl, List.forall_mem_nil _, rfl⟩
    exact List.forall_mem_cons.2 ⟨ha, List.forall_mem_singleton.2 hb⟩
  | succ n ih =>
    rcases cs with _ | ⟨a, _ | ⟨b, _ | ⟨c, cs⟩⟩⟩
    · cases hlength
    · cases hlength
    · cases hlength
    · obtain ⟨⟨ha, hb⟩, hc, hcs⟩ := (isSeparated_cons k a b c cs).1 h
      have hlength' : cs.length = 3 * n + 2 := by
        simp only [List.length_cons] at hlength
        omega
      obtain ⟨pairs, seps, hpairs, hhex, hseps, hsep, rfl⟩ := ih hlength' hcs
      refine ⟨(a, b) :: pairs, c :: seps, congrArg (· + 1) hpairs, ?_, congrArg (· + 1) hseps,
        List.forall_mem_cons.2 ⟨hc, hsep⟩, rfl⟩
      exact List.forall_mem_cons.2 ⟨ha, List.forall_mem_cons.2 ⟨hb, hhex⟩⟩

theorem isSeparated_spelled (hhex : ∀ c ∈ digitsOf pairs, isHex c = true)
    (hseps : ∀ sep ∈ seps, IsSeparator sep) (hlength : pairs.length = seps.length + 1) (k : ℕ) :
    isSeparated (3 * k) (spelled pairs seps) = true := by
  induction seps generalizing pairs k with
  | nil =>
    obtain ⟨p, rfl⟩ := List.length_eq_one_iff.1 hlength
    exact (isSeparated_pair k p.1 p.2).2 ((mem_digitsOf List.mem_cons_self).imp (hhex _) (hhex _))
  | cons sep seps ih =>
    obtain ⟨p, pairs, rfl⟩ := List.exists_cons_of_length_eq_add_one hlength
    obtain ⟨ha, hhex⟩ := List.forall_mem_cons.1 hhex
    obtain ⟨hb, hhex⟩ := List.forall_mem_cons.1 hhex
    obtain ⟨hsep, hseps⟩ := List.forall_mem_cons.1 hseps
    refine (isSeparated_cons k p.1 p.2 sep _).2 ⟨⟨ha, hb⟩, hsep, ?_⟩
    exact ih hhex hseps (Nat.succ.inj hlength) (k + 1)

theorem exists_digitsOf {n : ℕ} (hlength : cs.length = 2 * n) :
    ∃ pairs, pairs.length = n ∧ cs = digitsOf pairs := by
  induction n generalizing cs with
  | zero => exact ⟨[], rfl, List.eq_nil_of_length_eq_zero hlength⟩
  | succ n ih =>
    rcases cs with _ | ⟨a, _ | ⟨b, cs⟩⟩
    · cases hlength
    · simp only [List.length_cons, List.length_nil] at hlength
      omega
    · have hcs : cs.length = 2 * n := by
        simp only [List.length_cons] at hlength
        omega
      obtain ⟨pairs, hpairs, rfl⟩ := ih hcs
      exact ⟨(a, b) :: pairs, congrArg (· + 1) hpairs, rfl⟩

/-- What is accepted: six pairs of digits, with five separators of either kind, or none. -/
theorem isValidMacFormat_iff (mac : String) :
    isValidMacFormat mac = true ↔ ∃ pairs seps, Spells mac pairs seps ∧ Separates seps := by
  constructor
  · intro h
    rw [isValidMacFormat] at h
    -- the lengths are those of the two kinds of spelling
    split at h
    · next hlength =>
      obtain ⟨pairs, seps, hpairs, hhex, hseps, hsep, hmac⟩ :=
        @exists_spelled_of_isSeparated mac.toList 5 0 hlength h
      exact ⟨pairs, seps, ⟨hpairs, hhex, hmac⟩, .inr ⟨hseps, hsep⟩⟩
    split at h
    · next hlength =>
      obtain ⟨pairs, hpairs, hmac⟩ := @exists_digitsOf mac.toList 6 hlength
      refine ⟨pairs, [], ⟨hpairs, ?_, hmac.trans (spelled_nil pairs).symm⟩, .inl rfl⟩
      exact hmac ▸ List.all_eq_true.1 h
    · cases h
  · rintro ⟨pairs, seps, ⟨hpairs, hhex, hmac⟩, hseps⟩
    have hlength : mac.length = 2 * pairs.length + seps.length := by
      rw [← String.length_toList, hmac, length_spelled]
      rcases hseps with rfl | ⟨hseps, -⟩
      · exact hpairs ▸ Nat.succ_pos _
      · omega
    rw [isValidMacFormat]
    rcases hseps with rfl | ⟨hseps, hsep⟩
    · have hlength' : mac.length = 12 := by rw [hlength, hpairs, List.length_nil]
      rw [hlength', if_neg (by decide), if_pos rfl, hmac, spelled_nil]
      exact List.all_eq_true.2 hhex
    · have hlength' : mac.length = 17 := by rw [hlength, hpairs, hseps]
      rw [if_pos hlength', hmac]
      exact isSeparated_spelled hhex hsep (by omega) 0

/-- The separators of a spelling are what is no digit in it. -/
theorem Spells.seps_eq (h : Spells mac pairs seps) (hseps : Separates seps) :
    mac.toList.filter (fun c => !isHex c) = seps := by
  rw [h.toList_eq]
  refine filter_spelled_seps (fun c hc => ?_) (fun sep hsep => ?_) (h.length_eq ▸ hseps.length_le)
  · rw [h.isHex_of_mem c hc, Bool.not_true]
  · rw [(hseps.isSeparator sep hsep).isHex_eq, Bool.not_false]

theorem Documented.separates (h : Documented mac) :
    ∃ pairs seps, Spells mac pairs seps ∧ Separates seps ∧ ¬(':' ∈ seps ∧ '-' ∈ seps) := by
  obtain ⟨pairs, seps, hmac, hseps⟩ := h
  refine ⟨pairs, seps, hmac, ?_⟩
  rcases hseps with rfl | rfl | rfl
  · refine ⟨.inr ⟨rfl, fun sep hsep => .inl (List.eq_of_mem_replicate hsep)⟩, ?_⟩
    decide
  · refine ⟨.inr ⟨rfl, fun sep hsep => .inr (List.eq_of_mem_replicate hsep)⟩, ?_⟩
    decide
  · exact ⟨.inl rfl, fun h => List.not_mem_nil h.1⟩

/-- The documented formats are what is accepted if and only if separators of both kinds do not
    occur. -/
theorem documented_iff (mac : String) :
    (isValidMacFormat mac = true ↔ Documented mac) ↔ ¬Mixed mac := by
  have hvalid : Documented mac → isValidMacFormat mac = true := fun h => by
    obtain ⟨pairs, seps, hmac, hseps, -⟩ := h.separates
    exact (isValidMacFormat_iff mac).2 ⟨pairs, seps, hmac, hseps⟩
  constructor
  · rintro hiff ⟨pairs, seps, hmac, hlength, hsep, hcolon, hhyphen⟩
    have hseps : Separates seps := .inr ⟨hlength, hsep⟩
    have hdocumented : Documented mac :=
      hiff.1 ((isValidMacFormat_iff mac).2 ⟨pairs, seps, hmac, hseps⟩)
    obtain ⟨pairs', seps', hmac', hseps', hnot⟩ := hdocumented.separates
    -- any other spelling of the text has the same separators
    refine hnot ?_
    rw [← hmac'.seps_eq hseps', hmac.seps_eq hseps]
    exact ⟨hcolon, hhyphen⟩
  · refine fun hmixed => ⟨fun h => ?_, hvalid⟩
    obtain ⟨pairs, seps, hmac, hseps⟩ := (isValidMacFormat_iff mac).1 h
    refine ⟨pairs, seps, hmac, ?_⟩
    rcases hseps with rfl | ⟨hlength, hsep⟩
    · exact .inr (.inr rfl)
    -- one of the kinds does not occur
    rw [Mixed] at hmixed
    by_cases hhyphen : '-' ∈ seps
    · refine .inr (.inl (List.eq_replicate_iff.2 ⟨hlength, fun sep hmem => ?_⟩))
      refine (hsep sep hmem).resolve_left fun heq => hmixed ?_
      exact ⟨pairs, seps, hmac, hlength, hsep, heq ▸ hmem, hhyphen⟩
    · refine .inl (List.eq_replicate_iff.2 ⟨hlength, fun sep hmem => ?_⟩)
      exact (hsep sep hmem).resolve_right fun heq => hhyphen (heq ▸ hmem)

/-- Colons and a hyphen are accepted. -/
theorem not_documented_mixed : ¬(isValidMacFormat "00:1A:2B:3C:4D-5E" = true ↔
    Documented "00:1A:2B:3C:4D-5E") := by
  intro hiff
  obtain ⟨pairs, seps, hmac, hseps, hnot⟩ := (hiff.1 (by decide)).separates
  have hfilter := hmac.seps_eq hseps
  rw [← hfilter] at hnot
  exact hnot ⟨by decide, by decide⟩

/-! ## What is looked up -/

/-- The value of a hexadecimal digit. -/
def hexValue (c : Char) : ℕ :=
  if c.toNat ≤ 57 then c.toNat - 48 else if c.toNat ≤ 70 then c.toNat - 55 else c.toNat - 87

/-- The upper case digit of a value. -/
def upperDigit (n : ℕ) : Char := Char.ofNat (if n < 10 then 48 + n else 55 + n)

/-- A byte, in upper case. -/
def byteText (byte : ℕ) : List Char := [upperDigit (byte / 16), upperDigit (byte % 16)]

/-- The bytes that digits denote, two for each. -/
def bytesOf : List Char → List ℕ
  | a :: b :: cs => (16 * hexValue a + hexValue b) :: bytesOf cs
  | _ => []

/-- The digits of an address: what is no separator. -/
def macDigits (mac : String) : List Char := mac.toList.filter fun c => !(c = ':' || c = '-')

/-- The bytes of an address. -/
def macBytes (mac : String) : List ℕ := bytesOf (macDigits mac)

theorem forall_isHex {P : Char → Bool}
    (h : (List.range 128).all (fun n => !isHex (Char.ofNat n) || P (Char.ofNat n)) = true)
    {c : Char} (hc : isHex c = true) : P c = true := by
  have hlt : c.toNat < 128 := by
    have hle {d : Char} (hd : d.toNat < 128) (h : c ≤ d) : c.toNat < 128 := by
      exact lt_of_le_of_lt (UInt32.le_iff_toNat_le.1 h) hd
    simp only [isHex, Bool.or_eq_true, Bool.and_eq_true, decide_eq_true_eq] at hc
    rcases hc with (⟨-, h⟩ | ⟨-, h⟩) | ⟨-, h⟩
    · exact hle (by decide) h
    · exact hle (by decide) h
    · exact hle (by decide) h
  have hn := List.all_eq_true.1 h c.toNat (List.mem_range.2 hlt)
  rw [Char.ofNat_toNat, hc] at hn
  simpa using hn

theorem isXDigit_eq : OUIDatabase.isXDigit = isHex := rfl

theorem upperDigit_hexValue {c : Char} (hc : isHex c = true) :
    upperDigit (hexValue c) = c.toUpper ∧ hexValue c < 16 := by
  have h : decide (upperDigit (hexValue c) = c.toUpper ∧ hexValue c < 16) = true :=
    forall_isHex (P := fun c => decide (upperDigit (hexValue c) = c.toUpper ∧ hexValue c < 16))
      (by decide +kernel) hc
  exact of_decide_eq_true h

/-- An accepted address consists of its digits and of separators. -/
theorem Spells.macDigits_eq (h : Spells mac pairs seps) (hseps : Separates seps) :
    macDigits mac = digitsOf pairs := by
  rw [macDigits, h.toList_eq]
  refine filter_spelled_digits (fun c hc => ?_) fun sep hsep => ?_
  · have hhex := h.isHex_of_mem c hc
    rw [Bool.not_eq_true', Bool.or_eq_false_iff, decide_eq_false_iff_not, decide_eq_false_iff_not]
    refine ⟨?_, ?_⟩
    · rintro rfl
      exact absurd hhex (by decide)
    · rintro rfl
      exact absurd hhex (by decide)
  · rcases hseps.isSeparator sep hsep with rfl | rfl
    · rfl
    · rfl

/-- The digits of bytes, in upper case, are those that the bytes were written with. -/
theorem flatMap_byteText (h : ∀ c ∈ digitsOf pairs, isHex c = true) :
    (bytesOf (digitsOf pairs)).flatMap byteText = (digitsOf pairs).map Char.toUpper := by
  induction pairs with
  | nil => rfl
  | cons p pairs ih =>
    rw [digitsOf_cons] at h ⊢
    obtain ⟨ha, h⟩ := List.forall_mem_cons.1 h
    obtain ⟨hb, h⟩ := List.forall_mem_cons.1 h
    obtain ⟨ha, -⟩ := upperDigit_hexValue ha
    obtain ⟨hb, hlt⟩ := upperDigit_hexValue hb
    have hdiv : (16 * hexValue p.1 + hexValue p.2) / 16 = hexValue p.1 := by omega
    have hmod : (16 * hexValue p.1 + hexValue p.2) % 16 = hexValue p.2 := by omega
    rw [bytesOf, List.flatMap_cons, byteText, hdiv, hmod, ha, hb, ih h]
    rfl

theorem length_bytesOf (pairs : List (Char × Char)) :
    (bytesOf (digitsOf pairs)).length = pairs.length := by
  induction pairs with
  | nil => rfl
  | cons p pairs ih => rw [digitsOf_cons, bytesOf, List.length_cons, ih, List.length_cons]

/-- An accepted address has six bytes. -/
theorem macDigits_of_valid (h : isValidMacFormat mac = true) :
    (macDigits mac).length = 12 ∧ (∀ c ∈ macDigits mac, isHex c = true) ∧
      (macBytes mac).length = 6 ∧
      (macBytes mac).flatMap byteText = (macDigits mac).map Char.toUpper := by
  obtain ⟨pairs, seps, hmac, hseps⟩ := (isValidMacFormat_iff mac).1 h
  rw [macBytes, hmac.macDigits_eq hseps, length_digitsOf, length_bytesOf, hmac.length_eq]
  exact ⟨rfl, hmac.isHex_of_mem, rfl, flatMap_byteText hmac.isHex_of_mem⟩

/-- Two objects that agree apart from one of their members. -/
def Json.AgreeApart (key : String) (j j' : Json) : Prop :=
  j.Object (fun _ => True) ∧ j'.Object (fun _ => True) ∧ ∀ k ≠ key, j.get? k = j'.get? k

/-- Members may be assigned. -/
theorem Json.AgreeApart.set {key : String} {j j' : Json} (h : AgreeApart key j j') (k : String)
    (value : Json) : AgreeApart key (j.set k value) (j'.set k value) := by
  obtain ⟨hj, hj', hget⟩ := h
  refine ⟨hj.set trivial, hj'.set trivial, fun k' hk' => ?_⟩
  rw [hj.get?_set, hj'.get?_set, hget k' hk']

namespace OUIDatabase

/-- The lookup of an address asks the statement for one prefix: what the statement answers for
    others makes no difference to it, and what it answers for this one does. -/
def Asks (macAddress oui : String) : Prop :=
  (∀ statement statement' : String → OuiAnswer, statement oui = statement' oui →
    lookup (.answered true statement) macAddress =
      lookup (.answered true statement') macAddress) ∧
  ∃ statement statement' : String → OuiAnswer,
    (∀ other ≠ oui, statement other = statement' other) ∧
      lookup (.answered true statement) macAddress ≠ lookup (.answered true statement') macAddress

/-- No more than one prefix is asked for. -/
theorem Asks.unique {macAddress oui oui' : String} (h : Asks macAddress oui)
    (h' : Asks macAddress oui') : oui = oui' := by
  obtain ⟨statement, statement', hsame, hdiffers⟩ := h.2
  by_contra hne
  exact hdiffers (h'.1 statement statement' (hsame oui' (Ne.symm hne)))

/-- A whole address is looked up by its prefix. -/
theorem asks_extractOui {macAddress : String} (h : (normalizeMacAddress macAddress).length = 12) :
    Asks macAddress (extractOui (normalizeMacAddress macAddress)) := by
  constructor
  · intro statement statement' hsame
    simp only [lookup, hsame]
  · -- a prefix that is not found, and one that cannot be bound
    refine ⟨fun _ => .done, Function.update (fun _ => .done)
      (extractOui (normalizeMacAddress macAddress)) (.bindError ""), fun other hne => ?_, ?_⟩
    · rw [Function.update_of_ne hne]
    · simp only [lookup, h, Function.update_self, Bool.not_true, Bool.false_eq_true, if_false,
        ne_eq, not_true_eq_false]
      intro heq
      have hnone := (object_macFound macAddress (extractOui (normalizeMacAddress macAddress))
        false).get?_eq_none
      rw [Except.ok.inj heq] at hnone
      cases hnone

/-- The prefix of an address is its first three bytes. -/
theorem extractOui_eq {bytes : List ℕ} (h : 3 ≤ bytes.length) :
    extractOui (String.ofList (bytes.flatMap byteText)) =
      String.ofList ([':'].intercalate ((bytes.take 3).map byteText)) := by
  rcases bytes with _ | ⟨a, _ | ⟨b, _ | ⟨c, bytes⟩⟩⟩
  · cases h
  · simp at h
  · simp at h
  · rw [extractOui, String.toList_ofList]
    rfl

/-- Two answers agree apart from the address if they describe the same row. -/
theorem agreeApart_describe (column : ℕ → Option String) {j j' : Json}
    (h : Json.AgreeApart "mac" j j') :
    Json.AgreeApart "mac" (describe column j) (describe column j') := by
  rw [describe, describe]
  generalize ouiColumns = columns
  induction columns generalizing j j' with
  | nil => exact h
  | cons col columns ih =>
    rw [List.foldl_cons, List.foldl_cons]
    cases column col.1 with
    | none => exact ih h
    | some text => exact ih (h.set col.2 (.string text))

theorem agreeApart_macFound (macAddress macAddress' oui : String) (found : Bool) :
    Json.AgreeApart "mac" (macFound macAddress oui found) (macFound macAddress' oui found) := by
  have hmac : Json.AgreeApart "mac" (Json.null.set "mac" (.string macAddress))
      (Json.null.set "mac" (.string macAddress')) := by
    refine ⟨.null_set trivial, .null_set trivial, fun k hk => ?_⟩
    exact (if_neg hk.symm).trans (if_neg hk.symm).symm
  exact (hmac.set "oui" _).set "found" _

/-- The answer depends on an address through its normal form, apart from the address itself. -/
theorem lookup_congr {macAddress macAddress' : String}
    (h : normalizeMacAddress macAddress = normalizeMacAddress macAddress')
    (statement : String → OuiAnswer) :
    ∃ r r', lookup (.answered true statement) macAddress = .ok r ∧
      lookup (.answered true statement) macAddress' = .ok r' ∧ Json.AgreeApart "mac" r r' := by
  have herror (text : String) : Json.AgreeApart "mac" (Json.null.set "error" (.string text))
      (Json.null.set "error" (.string text)) :=
    ⟨.null_set trivial, .null_set trivial, fun _ _ => rfl⟩
  simp only [lookup, h, Bool.not_true, Bool.false_eq_true, if_false]
  split
  · exact ⟨_, _, rfl, rfl, herror _⟩
  cases statement (extractOui (normalizeMacAddress macAddress')) with
  | bindError text | failed text => exact ⟨_, _, rfl, rfl, herror _⟩
  | done => exact ⟨_, _, rfl, rfl, agreeApart_macFound _ _ _ _⟩
  | row column => exact ⟨_, _, rfl, rfl, agreeApart_describe _ (agreeApart_macFound _ _ _ _)⟩

/-- The answer that rejects an address. -/
def Rejected (result : Json) : Prop :=
  result.get? "error" = some (.string "Invalid MAC address format")

theorem not_rejected_error {front : String} (hfront : front.toList.head? = some 'F' ∨
      front.toList.head? = some 'Q') (text : String) :
    ¬Rejected (Json.null.set "error" (.string (front ++ text))) := by
  intro h
  have heq : front ++ text = "Invalid MAC address format" := Json.string.inj (Option.some_inj.1 h)
  have hhead : (front ++ text).toList.head? = some 'I' := heq ▸ by decide
  rw [String.toList_append, List.head?_append] at hhead
  rcases hfront with hfront | hfront
  · rw [hfront, Option.some_or] at hhead
    exact absurd hhead (by decide)
  · rw [hfront, Option.some_or] at hhead
    exact absurd hhead (by decide)

/-- An address whose normal form has twelve digits is not rejected. -/
theorem not_rejected {macAddress : String} (h : (normalizeMacAddress macAddress).length = 12)
    {statement : String → OuiAnswer} {result : Json}
    (hresult : lookup (.answered true statement) macAddress = .ok result) : ¬Rejected result := by
  have hobject {j : Json} (hj : j.Object fun m => m.1 ≠ "error") : ¬Rejected j := fun h => by
    rw [Rejected, hj.get?_eq_none] at h
    cases h
  simp only [lookup, h, Bool.not_true, Bool.false_eq_true, ne_eq, not_true, if_false] at hresult
  cases hanswer : statement (extractOui (normalizeMacAddress macAddress)) with
  | bindError text =>
    rw [hanswer] at hresult
    obtain rfl := Except.ok.inj hresult
    exact not_rejected_error (.inl (by decide)) text
  | failed text =>
    rw [hanswer] at hresult
    obtain rfl := Except.ok.inj hresult
    exact not_rejected_error (.inr (by decide)) text
  | done =>
    rw [hanswer] at hresult
    obtain rfl := Except.ok.inj hresult
    exact hobject (object_macFound _ _ _)
  | row column =>
    rw [hanswer] at hresult
    obtain rfl := Except.ok.inj hresult
    exact hobject (object_describe column (object_macFound _ _ _) rfl).1

/-- The database takes an accepted address for its twelve digits, in upper case, and asks for its
    first three bytes, with colons between them, and for nothing else. Any other accepted spelling
    of the same bytes is looked up by the same prefix and gets the same answer, apart from the
    address that is repeated in it. -/
theorem lookup_of_valid {mac : String} (h : isValidMacFormat mac = true) :
    ((macDigits mac).length = 12 ∧ (∀ c ∈ macDigits mac, isHex c = true) ∧
      normalizeMacAddress mac = String.ofList ((macDigits mac).map Char.toUpper)) ∧
    (∀ oui, Asks mac oui ↔
      oui = String.ofList ([':'].intercalate (((macBytes mac).take 3).map byteText))) ∧
    (∀ statement result, lookup (.answered true statement) mac = .ok result → ¬Rejected result) ∧
    ∀ mac', isValidMacFormat mac' = true → macBytes mac' = macBytes mac →
      (∀ oui, Asks mac' oui ↔ Asks mac oui) ∧
      ∀ statement, ∃ r r', lookup (.answered true statement) mac = .ok r ∧
        lookup (.answered true statement) mac' = .ok r' ∧ Json.AgreeApart "mac" r r' := by
  have hnormal {mac : String} (h : isValidMacFormat mac = true) :
      normalizeMacAddress mac = String.ofList ((macDigits mac).map Char.toUpper) := by
    obtain ⟨pairs, seps, hmac, hseps⟩ := (isValidMacFormat_iff mac).1 h
    -- the database keeps what is a digit, `macDigits` what is no separator
    have hfilter : mac.toList.filter isHex = digitsOf pairs := by
      rw [hmac.toList_eq]
      exact filter_spelled_digits hmac.isHex_of_mem fun sep hsep =>
        (hseps.isSeparator sep hsep).isHex_eq
    rw [normalizeMacAddress, isXDigit_eq, hfilter, hmac.macDigits_eq hseps]
  have hwhole {mac : String} (h : isValidMacFormat mac = true) :
      (normalizeMacAddress mac).length = 12 := by
    rw [hnormal h, String.length_ofList, List.length_map, (macDigits_of_valid h).1]
  have hasks {mac : String} (h : isValidMacFormat mac = true) (oui : String) : Asks mac oui ↔
      oui = String.ofList ([':'].intercalate (((macBytes mac).take 3).map byteText)) := by
    obtain ⟨-, -, hbytes, htext⟩ := macDigits_of_valid h
    have hprefix := asks_extractOui (hwhole h)
    rw [hnormal h, ← htext, extractOui_eq (by omega)] at hprefix
    constructor
    · exact fun houi => houi.unique hprefix
    · rintro rfl
      exact hprefix
  obtain ⟨hlength, hhex, -, htext⟩ := macDigits_of_valid h
  refine ⟨⟨hlength, hhex, hnormal h⟩, hasks h, fun _ _ => not_rejected (hwhole h),
    fun mac' h' heq => ⟨fun oui => ?_, ?_⟩⟩
  · rw [hasks h, hasks h', heq]
  · obtain ⟨-, -, -, htext'⟩ := macDigits_of_valid h'
    -- the normal form is the text of the bytes, so it is the same for both
    have hsame : normalizeMacAddress mac = normalizeMacAddress mac' := by
      rw [hnormal h, hnormal h', ← htext, ← htext', heq]
    exact lookup_congr hsame

theorem lookup_of_valid_hyphens : Asks "00-1a-2b-3c-4d-5e" "00:1A:2B" := by
  have h : isValidMacFormat "00:1A:2B:3C:4D:5E" = true := by decide
  obtain ⟨-, hasks, -, hother⟩ := lookup_of_valid h
  obtain ⟨hsame, -⟩ := hother "00-1a-2b-3c-4d-5e" (by decide) (by decide)
  exact (hsame "00:1A:2B").2 ((hasks "00:1A:2B").2 (by decide))

end OUIDatabase

end IpServer
