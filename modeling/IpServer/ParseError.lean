import IpServer.Json

/-!
# The texts of parse errors

The parser ends the text of a `parse_error` with the bytes it read last, between
quotes: control characters are spelled out, all other bytes stand as they were
sent. What the rest of the text says is left to the library (`QuotesLastRead`).

* `isUtf8_flatMap`: whether bytes are UTF-8 does not depend on how the characters in
  ASCII are spelled.
* `QuotesLastRead.validUtf8_iff`: the text of a `parse_error` is UTF-8 exactly if the bytes
  read last are.
-/

namespace IpServer.Json

/-! ## Characters of several bytes -/

/-- How many bytes follow the first one of a character that is not in ASCII. -/
def following (a : ℕ) : ℕ := if a < 0xE0 then 1 else if a < 0xF0 then 2 else 3

/-- A character that ends before its last byte is not well-formed. -/
theorem isUtf8_of_short {a : ℕ} (ha : 0x80 ≤ a) {mid rest : List ℕ}
    (hmid : mid.length < following a) (hrest : ∀ b ∈ rest.head?, b < 0x80) :
    isUtf8 (a :: mid ++ rest) = false := by
  rw [following] at hmid
  rw [List.cons_append, isUtf8.eq_def]
  cases rest with
  | nil =>
    rcases mid with _ | ⟨_, _ | ⟨_, _ | ⟨_, mid⟩⟩⟩ <;> grind
  | cons b rest =>
    have hb : b < 0x80 := hrest b rfl
    have hcontinuation : isContinuation b = false := by
      rw [isContinuation, decide_eq_false (not_le.2 hb), Bool.false_and]
    clear hrest
    rcases mid with _ | ⟨_, _ | ⟨_, _ | ⟨_, mid⟩⟩⟩
    · rw [List.nil_append]
      grind
    · grind
    · grind
    · grind

/-- After the last byte of a character the bytes are decoded afresh. -/
theorem isUtf8_of_full {a : ℕ} (ha : 0x80 ≤ a) {mid : List ℕ} (hmid : mid.length = following a)
    (rest : List ℕ) : isUtf8 (a :: mid ++ rest) = (isUtf8 (a :: mid) && isUtf8 rest) := by
  rw [following] at hmid
  rw [List.cons_append, isUtf8.eq_def, isUtf8.eq_def (a :: mid)]
  rcases mid with _ | ⟨_, _ | ⟨_, _ | ⟨_, _ | ⟨_, mid⟩⟩⟩⟩ <;> grind [isUtf8]

/-- Some bytes start with `n` bytes that are not in ASCII, or with fewer and then with one that
    is, or end. -/
theorem exists_high_prefix (n : ℕ) (bs : List ℕ) : ∃ mid rest, bs = mid ++ rest ∧
    (∀ b ∈ mid, 0x80 ≤ b) ∧
      (mid.length = n ∨ mid.length < n ∧ ∀ b ∈ rest.head?, b < 0x80) := by
  induction n generalizing bs with
  | zero => exact ⟨[], bs, rfl, List.forall_mem_nil _, .inl rfl⟩
  | succ n ih =>
    cases bs with
    | nil => exact ⟨[], [], rfl, List.forall_mem_nil _, .inr ⟨Nat.succ_pos n, nofun⟩⟩
    | cons b bs =>
      rcases lt_or_ge b 0x80 with hlow | hhigh
      · refine ⟨[], b :: bs, rfl, List.forall_mem_nil _, .inr ⟨Nat.succ_pos n, fun c hc => ?_⟩⟩
        exact Option.some_inj.1 hc ▸ hlow
      · obtain ⟨mid, rest, rfl, hmid, hlength⟩ := ih bs
        refine ⟨b :: mid, rest, rfl, List.forall_mem_cons.2 ⟨hhigh, hmid⟩, ?_⟩
        exact hlength.imp (congrArg _) (And.imp_left Nat.succ_lt_succ)

/-- How the characters in ASCII are spelled in ASCII, and what follows in ASCII, does not
    matter. -/
theorem isUtf8_flatMap {f : ℕ → List ℕ} (hhigh : ∀ b, 0x80 ≤ b → f b = [b])
    (hascii : ∀ b < 0x80, f b ≠ [] ∧ ∀ c ∈ f b, c < 0x80) {back : List ℕ}
    (hback : ∀ b ∈ back, b < 0x80) (bs : List ℕ) : isUtf8 (bs.flatMap f ++ back) = isUtf8 bs := by
  have hhead (bs : List ℕ) (h : ∀ b ∈ bs.head?, b < 0x80) :
      ∀ b ∈ (bs.flatMap f ++ back).head?, b < 0x80 := by
    cases bs with
    | nil => exact fun b hb => hback b (List.mem_of_mem_head? hb)
    | cons b bs =>
      obtain ⟨hne, hlt⟩ := hascii b (h b rfl)
      rw [List.flatMap_cons, List.append_assoc, List.head?_append_of_ne_nil _ hne]
      exact fun c hc => hlt c (List.mem_of_mem_head? hc)
  -- on the number of bytes: each step takes a whole character
  induction hn : bs.length using Nat.strong_induction_on generalizing bs with
  | h n ih =>
    cases bs with
    | nil => exact isUtf8_of_ascii hback
    | cons a bs =>
      rw [List.length_cons] at hn
      rw [List.flatMap_cons, List.append_assoc]
      rcases lt_or_ge a 0x80 with ha | ha
      · rw [isUtf8_append (hascii a ha).2, ih bs.length (by omega) bs rfl]
        exact (isUtf8_append (List.forall_mem_singleton.2 ha) bs).symm
      · obtain ⟨mid, rest, rfl, hmid, hlength⟩ := exists_high_prefix (following a) bs
        have hfixed : mid.flatMap f = mid := by
          rw [List.flatMap_congr fun b hb => hhigh b (hmid b hb), List.flatMap_singleton']
        rw [hhigh a ha, List.flatMap_append, hfixed, List.append_assoc, List.singleton_append,
          ← List.cons_append, ← List.cons_append]
        rcases hlength with hfull | ⟨hshort, hrest⟩
        · rw [List.length_append] at hn
          rw [isUtf8_of_full ha hfull, isUtf8_of_full ha hfull, ih rest.length (by omega) rest rfl]
        · rw [isUtf8_of_short ha hshort hrest, isUtf8_of_short ha hshort (hhead rest hrest)]

/-! ## What the parser read last -/

/-- A control character, as the text of a `parse_error` spells it. -/
def controlText (n : ℕ) : List Char :=
  let digit (n : ℕ) : Char := Char.ofNat (if n < 10 then 48 + n else 55 + n)
  ['<', 'U', '+', '0', '0', digit (n / 16), digit (n % 16), '>']

/-- A text that the parser has read, as the text of a `parse_error` quotes it. -/
def tokenString (s : String) : String :=
  String.ofList (s.toList.flatMap fun c => if c.toNat ≤ 0x1F then controlText c.toNat else [c])

theorem toNat_tokenString (s : String) : (tokenString s).toList.map Char.toNat =
    (s.toList.map Char.toNat).flatMap fun n =>
      if n ≤ 0x1F then (controlText n).map Char.toNat else [n] := by
  rw [tokenString, String.toList_ofList, List.map_flatMap, List.flatMap_map]
  refine List.flatMap_congr fun c _ => ?_
  split
  · rfl
  · rfl

/-- Quoting a text, and adding some in ASCII, does not matter. -/
theorem validUtf8_tokenString {front back : String}
    (hfront : front.toList.all fun c => decide (c.toNat < 0x80))
    (hback : back.toList.all fun c => decide (c.toNat < 0x80)) (s : String) :
    validUtf8 (front ++ tokenString s ++ back) = validUtf8 s := by
  have hall : (List.range 0x20).all fun n => (controlText n).all fun c => c.toNat < 0x80 := by
    decide
  have hcontrol : ∀ n < 0x20, ∀ c ∈ controlText n, c.toNat < 0x80 := fun n hn c hc =>
    of_decide_eq_true (List.all_eq_true.1 (List.all_eq_true.1 hall n (List.mem_range.2 hn)) c hc)
  rw [String.append_assoc, validUtf8_append hfront, validUtf8, String.toList_append,
    List.map_append, toNat_tokenString]
  refine isUtf8_flatMap (fun n hn => if_neg (by omega)) (fun n hn => ?_) (fun n hn => ?_) _
  · split
    · next hle =>
      refine ⟨List.map_eq_nil_iff.not.2 (List.cons_ne_nil _ _), fun m hm => ?_⟩
      obtain ⟨c, hc, rfl⟩ := List.mem_map.1 hm
      exact hcontrol n (Nat.lt_succ_of_le hle) c hc
    · exact ⟨List.cons_ne_nil _ _, List.forall_mem_singleton.2 hn⟩
  · obtain ⟨c, hc, rfl⟩ := List.mem_map.1 hn
    exact of_decide_eq_true (List.all_eq_true.1 hback c hc)

/-- On a text that is no JSON, the parser quotes the part of it that `lastRead` gives, in a text
    that otherwise is in ASCII. -/
structure QuotesLastRead (lib : JsonLibrary) (lastRead : String → String) : Prop where
  part_of : ∀ text, (lastRead text).toList <:+: text.toList
  what_eq : ∀ text what, lib.parse text = .error what → ∃ front back : String,
    (front.toList.all fun c => decide (c.toNat < 0x80)) = true ∧
    (back.toList.all fun c => decide (c.toNat < 0x80)) = true ∧
    what = front ++ tokenString (lastRead text) ++ back

/-- The text of a `parse_error` is UTF-8 exactly if the bytes read last are. -/
theorem QuotesLastRead.validUtf8_iff {lib : JsonLibrary} {lastRead : String → String}
    (h : QuotesLastRead lib lastRead) {text what : String} (hparse : lib.parse text = .error what) :
    validUtf8 what = true ↔ validUtf8 (lastRead text) = true := by
  obtain ⟨front, back, hfront, hback, rfl⟩ := h.what_eq text what hparse
  rw [validUtf8_tokenString hfront hback]

end IpServer.Json
