import IpServer.Basic
import IpServer.Library.Except
import Mathlib.Data.String.Basic

/-!
# JSON values

The values of `nlohmann::json` and the operations the source uses on them. An
integer is kept as the library keeps it, signed or unsigned in 64 bits, and a
number with a fraction as the bits of its `double`. Members of an object are
sorted by key, without duplicates.

`dump` is the compact serialisation, `dumpIndented` the one over several lines:
both throw on a string that is not UTF-8. How a `double` is printed, the text of
that exception, and the parser are left to the library (`JsonLibrary`).
-/

namespace IpServer

/-- A JSON value. -/
inductive Json
  | null
  | boolean (b : Bool)
  | integer (n : Int64)
  | unsigned (n : UInt64)
  | float (bits : UInt64)
  | string (s : String)
  | array (items : List Json)
  | object (members : List (String × Json))
  deriving Repr, Inhabited

namespace Json

/-! ## Members -/

/-- The value of `key` among the members of an object. -/
def find (key : String) : List (String × Json) → Option Json
  | [] => none
  | (k, v) :: ms => if k = key then some v else find key ms

/-- The members after `key` is assigned `value`, in the order of the keys. -/
def assign (key : String) (value : Json) : List (String × Json) → List (String × Json)
  | [] => [(key, value)]
  | (k, v) :: ms =>
    if k = key then (key, value) :: ms
    else if key < k then (key, value) :: (k, v) :: ms
    else (k, v) :: assign key value ms

/-- `j[key]`, reading. -/
def get? (j : Json) (key : String) : Option Json :=
  match j with
  | .object ms => find key ms
  | _ => none

/-- `j.contains(key)`: false on anything but an object. -/
def contains (j : Json) (key : String) : Bool := (j.get? key).isSome

/-- `j[key] = value`: a null becomes an object. (The source assigns to nothing
    but nulls and objects.) -/
def set (j : Json) (key : String) (value : Json) : Json :=
  match j with
  | .object ms => .object (assign key value ms)
  | .null => .object [(key, value)]
  | j => j

/-- `j.update(o)`: every member of `o` is assigned in `j`. -/
def update (j o : Json) : Json :=
  match o with
  | .object ms => ms.foldl (fun j m => j.set m.1 m.2) j
  | _ => j

/-- `j.type_name()`. -/
def typeName : Json → String
  | null => "null"
  | boolean _ => "boolean"
  | integer _ | unsigned _ | float _ => "number"
  | string _ => "string"
  | array _ => "array"
  | object _ => "object"

/-- The exception of `j.get<T>()`, where the type `T` is named `type`. -/
def typeError (type : String) (j : Json) : Exn :=
  .json ("[json.exception.type_error.302] type must be " ++ type ++ ", but is " ++ j.typeName)

/-- `j.value(key, default)` for a boolean: throws when `j` is no object, or when
    it has the key with a value that is no boolean. -/
def value (j : Json) (key : String) (default : Bool) : Except Exn Bool :=
  match j with
  | .object ms =>
    match find key ms with
    | none => .ok default
    | some (.boolean b) => .ok b
    | some v => .error (typeError "boolean" v)
  | j => .error (.json ("[json.exception.type_error.306] cannot use value() with " ++ j.typeName))

/-- An object that is assigned two members in the order of their keys. -/
theorem null_set_set {k₁ k₂ : String} (h : k₁.toList < k₂.toList) (a b : Json) :
    (Json.null.set k₁ a).set k₂ b = .object [(k₁, a), (k₂, b)] := by
  have hlt := String.lt_iff_toList_lt.2 h
  rw [Json.set, Json.set, assign, assign, if_neg hlt.ne, if_neg (not_lt_of_gt hlt)]

/-! ## Serialisation -/

/-- A continuation byte of UTF-8. -/
def isContinuation (b : ℕ) : Bool := 0x80 ≤ b && b ≤ 0xBF

/-- Whether bytes are well-formed UTF-8. -/
def isUtf8 : List ℕ → Bool
  | [] => true
  | a :: bs =>
    if a < 0x80 then isUtf8 bs
    else
      match bs with
      | [] => false
      | b :: bs =>
        if 0xC2 ≤ a ∧ a ≤ 0xDF then isContinuation b && isUtf8 bs
        else
          match bs with
          | [] => false
          | c :: bs =>
            if 0xE0 ≤ a ∧ a ≤ 0xEF then
              (if a = 0xE0 then 0xA0 ≤ b else 0x80 ≤ b) &&
                (if a = 0xED then b ≤ 0x9F else b ≤ 0xBF) && isContinuation c && isUtf8 bs
            else
              match bs with
              | [] => false
              | d :: bs =>
                0xF0 ≤ a && a ≤ 0xF4 && (if a = 0xF0 then 0x90 ≤ b else 0x80 ≤ b) &&
                  (if a = 0xF4 then b ≤ 0x8F else b ≤ 0xBF) &&
                  isContinuation c && isContinuation d && isUtf8 bs

/-- Whether a `std::string` is well-formed UTF-8. -/
def validUtf8 (s : String) : Bool := isUtf8 (s.toList.map Char.toNat)

theorem isUtf8_of_ascii {bs : List ℕ} (h : ∀ b ∈ bs, b < 0x80) : isUtf8 bs = true := by
  induction bs with
  | nil => rfl
  | cons b bs ih =>
    rw [isUtf8.eq_def]
    simp only [h b List.mem_cons_self, if_true]
    exact ih fun c hc => h c (List.mem_cons_of_mem b hc)

theorem isUtf8_append {bs : List ℕ} (h : ∀ b ∈ bs, b < 0x80) (cs : List ℕ) :
    isUtf8 (bs ++ cs) = isUtf8 cs := by
  induction bs with
  | nil => rfl
  | cons b bs ih =>
    rw [List.cons_append, isUtf8.eq_def]
    simp only [h b List.mem_cons_self, if_true]
    exact ih fun c hc => h c (List.mem_cons_of_mem b hc)

/-- A text in ASCII is UTF-8. -/
theorem validUtf8_of_ascii {s : String} (h : s.toList.all fun c => decide (c.toNat < 0x80)) :
    validUtf8 s = true := by
  refine isUtf8_of_ascii fun b hb => ?_
  obtain ⟨c, hc, rfl⟩ := List.mem_map.1 hb
  exact of_decide_eq_true (List.all_eq_true.1 h c hc)

/-- A text in ASCII in front does not matter. -/
theorem validUtf8_append {s : String} (h : s.toList.all fun c => decide (c.toNat < 0x80))
    (t : String) : validUtf8 (s ++ t) = validUtf8 t := by
  rw [validUtf8, String.toList_append, List.map_append, isUtf8_append, ← validUtf8]
  intro b hb
  obtain ⟨c, hc, rfl⟩ := List.mem_map.1 hb
  exact of_decide_eq_true (List.all_eq_true.1 h c hc)

/-- A number is written in UTF-8. -/
theorem validUtf8_toString_nat (n : ℕ) : validUtf8 (toString n) = true := by
  refine validUtf8_of_ascii (List.all_eq_true.2 fun c hc => decide_eq_true ?_)
  rw [Nat.toString_eq_ofList_toDigits, String.toList_ofList] at hc
  have hdigit := Nat.isDigit_of_mem_toDigits (by decide) (by decide) hc
  exact lt_of_le_of_lt (Char.isDigit_iff_toNat.1 hdigit).2 (by decide)

theorem validUtf8_toString_int (n : ℤ) : validUtf8 (toString n) = true := by
  cases n with
  | ofNat n => exact validUtf8_toString_nat n
  | negSucc n => exact (validUtf8_append (s := "-") (by decide) _).trans (validUtf8_toString_nat _)

mutual

/-- Every string in a value is UTF-8. -/
def isUtf8Text : Json → Bool
  | .string s => validUtf8 s
  | .array items => areUtf8Texts items
  | .object ms => areUtf8Members ms
  | .null => true
  | .boolean _ => true
  | .integer _ => true
  | .unsigned _ => true
  | .float _ => true

/-- Every string in the items of an array is UTF-8. -/
def areUtf8Texts : List Json → Bool
  | [] => true
  | j :: js => isUtf8Text j && areUtf8Texts js

/-- Every string in the members of an object is UTF-8. -/
def areUtf8Members : List (String × Json) → Bool
  | [] => true
  | (k, j) :: ms => validUtf8 k && isUtf8Text j && areUtf8Members ms

end

theorem areUtf8Members_assign {key : String} {value : Json} {ms : List (String × Json)}
    (hms : areUtf8Members ms) (hkey : validUtf8 key) (hvalue : value.isUtf8Text) :
    areUtf8Members (assign key value ms) := by
  induction ms with
  | nil => simp [assign, areUtf8Members, hkey, hvalue]
  | cons m ms ih =>
    obtain ⟨k, v⟩ := m
    simp only [areUtf8Members, Bool.and_eq_true] at hms
    rw [assign]
    split
    · simp [areUtf8Members, hkey, hvalue, hms.2]
    · split
      · simp [areUtf8Members, hkey, hvalue, hms.1, hms.2]
      · simp [areUtf8Members, hms.1, ih hms.2]

/-- Assigning a member in UTF-8 keeps a value so. -/
theorem isUtf8Text_set {j : Json} {key : String} {value : Json} (hj : j.isUtf8Text)
    (hkey : validUtf8 key) (hvalue : value.isUtf8Text) : (j.set key value).isUtf8Text := by
  cases j with
  | object ms =>
    rw [isUtf8Text] at hj
    exact areUtf8Members_assign hj hkey hvalue
  | null => simp [set, isUtf8Text, areUtf8Members, hkey, hvalue]
  | boolean | integer | unsigned | float | string | array => exact hj

/-- A hexadecimal digit, as `dump` writes it in an escape. -/
def hexDigit (n : ℕ) : Char := if n < 10 then Char.ofNat (48 + n) else Char.ofNat (87 + n)

/-- The text of a character inside a JSON string. -/
def escape (c : Char) : List Char :=
  if c = '"' then ['\\', '"']
  else if c = '\\' then ['\\', '\\']
  else if c.toNat = 8 then ['\\', 'b']
  else if c.toNat = 9 then ['\\', 't']
  else if c.toNat = 10 then ['\\', 'n']
  else if c.toNat = 12 then ['\\', 'f']
  else if c.toNat = 13 then ['\\', 'r']
  else if c.toNat < 0x20 then
    ['\\', 'u', '0', '0', hexDigit (c.toNat / 16), hexDigit (c.toNat % 16)]
  else [c]

/-- A string between quotes, escaped. -/
def quote (s : String) : String := String.ofList ('"' :: s.toList.flatMap escape ++ ['"'])

end Json

/-- What is left to the JSON library. -/
structure JsonLibrary where
  /-- `json::parse`; on a text that is no JSON, the text of the `parse_error` -/
  parse : String → Except String Json
  /-- `operator>>` from a stream with the text: what follows the first value is ignored -/
  extract : String → Except String Json
  /-- how `dump` prints a `double`, given its bits -/
  showFloat : UInt64 → String
  /-- the text of the `type_error` thrown on a string that is not UTF-8 -/
  utf8Error : String → String

namespace JsonLibrary

variable (lib : JsonLibrary)

/-- The serialisation of a string. -/
def dumpString (s : String) : Except Exn String :=
  if Json.validUtf8 s then .ok (Json.quote s) else .error (.json (lib.utf8Error s))

mutual

/-- `j.dump()`. -/
def dump : Json → Except Exn String
  | .null => .ok "null"
  | .boolean b => .ok (if b then "true" else "false")
  | .integer n => .ok (toString n.toInt)
  | .unsigned n => .ok (toString n.toNat)
  | .float bits => .ok (lib.showFloat bits)
  | .string s => lib.dumpString s
  | .array items => (dumpItems items).map fun ss => "[" ++ ",".intercalate ss ++ "]"
  | .object ms => (dumpMembers ms).map fun ss => "\x7b" ++ ",".intercalate ss ++ "\x7d"

/-- The serialisations of the items of an array. -/
def dumpItems : List Json → Except Exn (List String)
  | [] => .ok []
  | j :: js => do
    let text ← dump j
    return text :: (← dumpItems js)

/-- The serialisations of the members of an object. -/
def dumpMembers : List (String × Json) → Except Exn (List String)
  | [] => .ok []
  | (k, j) :: ms => do
    let key ← lib.dumpString k
    let text ← dump j
    return (key ++ ":" ++ text) :: (← dumpMembers ms)

end

/-- Items or members of `dump(2)` between brackets, each on a line of its own; `level` is
    the indentation of the brackets. -/
def indented (level : ℕ) (opening closing : String) (texts : List String) : String :=
  if texts.isEmpty then opening ++ closing
  else
    let newLine (n : ℕ) := "\n" ++ String.ofList (List.replicate n ' ')
    opening ++ newLine (level + 2) ++ ("," ++ newLine (level + 2)).intercalate texts ++
      newLine level ++ closing

mutual

/-- `j.dump(2)`, with the value at the indentation `level`. -/
def dumpIndented (level : ℕ) : Json → Except Exn String
  | .array items => (dumpIndentedItems (level + 2) items).map (indented level "[" "]")
  | .object ms => (dumpIndentedMembers (level + 2) ms).map (indented level "\x7b" "\x7d")
  | .null => lib.dump .null
  | .boolean b => lib.dump (.boolean b)
  | .integer n => lib.dump (.integer n)
  | .unsigned n => lib.dump (.unsigned n)
  | .float bits => lib.dump (.float bits)
  | .string s => lib.dump (.string s)

/-- The serialisations of the items of an array. -/
def dumpIndentedItems (level : ℕ) : List Json → Except Exn (List String)
  | [] => .ok []
  | j :: js => do
    let text ← dumpIndented level j
    return text :: (← dumpIndentedItems level js)

/-- The serialisations of the members of an object. -/
def dumpIndentedMembers (level : ℕ) : List (String × Json) → Except Exn (List String)
  | [] => .ok []
  | (k, j) :: ms => do
    let key ← lib.dumpString k
    let text ← dumpIndented level j
    return (key ++ ": " ++ text) :: (← dumpIndentedMembers level ms)

end

variable {lib}

theorem dumpString_eq_ok {s : String} :
    (∃ text, lib.dumpString s = .ok text) ↔ Json.validUtf8 s := by
  rw [dumpString]
  split
  · next h => exact iff_of_true ⟨_, rfl⟩ h
  · next h => exact iff_of_false (fun ⟨_, hd⟩ => by cases hd) h

mutual

/-- A value can be serialised exactly if every string in it is UTF-8. -/
theorem dump_eq_ok : ∀ j : Json, (∃ text, lib.dump j = .ok text) ↔ j.isUtf8Text
  | .string s => by rw [dump, Json.isUtf8Text, dumpString_eq_ok]
  | .array items => by
    rw [Json.isUtf8Text, ← dumpItems_eq_ok items]
    simp only [dump, map_eq_ok]
    exact ⟨fun ⟨_, texts, h, _⟩ => ⟨texts, h⟩, fun ⟨texts, h⟩ => ⟨_, texts, h, rfl⟩⟩
  | .object ms => by
    rw [Json.isUtf8Text, ← dumpMembers_eq_ok ms]
    simp only [dump, map_eq_ok]
    exact ⟨fun ⟨_, texts, h, _⟩ => ⟨texts, h⟩, fun ⟨texts, h⟩ => ⟨_, texts, h, rfl⟩⟩
  | .null => iff_of_true ⟨_, rfl⟩ rfl
  | .boolean _ => iff_of_true ⟨_, rfl⟩ rfl
  | .integer _ => iff_of_true ⟨_, rfl⟩ rfl
  | .unsigned _ => iff_of_true ⟨_, rfl⟩ rfl
  | .float _ => iff_of_true ⟨_, rfl⟩ rfl

theorem dumpItems_eq_ok : ∀ items : List Json,
    (∃ texts, lib.dumpItems items = .ok texts) ↔ Json.areUtf8Texts items
  | [] => iff_of_true ⟨_, rfl⟩ rfl
  | j :: js => by
    rw [Json.areUtf8Texts, Bool.and_eq_true, ← dump_eq_ok j, ← dumpItems_eq_ok js]
    simp only [dumpItems, bind_eq_ok, pure_eq_ok]
    exact ⟨fun ⟨_, text, h, texts, hs, _⟩ => ⟨⟨text, h⟩, ⟨texts, hs⟩⟩,
      fun ⟨⟨text, h⟩, ⟨texts, hs⟩⟩ => ⟨_, text, h, texts, hs, rfl⟩⟩

theorem dumpMembers_eq_ok : ∀ ms : List (String × Json),
    (∃ texts, lib.dumpMembers ms = .ok texts) ↔ Json.areUtf8Members ms
  | [] => iff_of_true ⟨_, rfl⟩ rfl
  | (k, j) :: ms => by
    rw [Json.areUtf8Members, Bool.and_eq_true, Bool.and_eq_true, ← @dumpString_eq_ok lib,
      ← dump_eq_ok j, ← dumpMembers_eq_ok ms]
    simp only [dumpMembers, bind_eq_ok, pure_eq_ok]
    exact ⟨fun ⟨_, key, hk, text, h, texts, hs, _⟩ => ⟨⟨⟨key, hk⟩, ⟨text, h⟩⟩, ⟨texts, hs⟩⟩,
      fun ⟨⟨⟨key, hk⟩, ⟨text, h⟩⟩, ⟨texts, hs⟩⟩ => ⟨_, key, hk, text, h, texts, hs, rfl⟩⟩

end

/-- The serialisations of the items of an array are those of each. -/
theorem dumpItems_eq_map {items : List Json} {texts : List String} :
    lib.dumpItems items = .ok texts ↔ items.map lib.dump = texts.map Except.ok := by
  induction items generalizing texts with
  | nil =>
    rw [dumpItems, Except.ok.injEq, List.map_nil, eq_comm, eq_comm (a := []), List.map_eq_nil_iff]
  | cons j js ih =>
    simp only [dumpItems, bind_eq_ok, pure_eq_ok, List.map_cons]
    constructor
    · rintro ⟨text, htext, rest, hrest, rfl⟩
      rw [List.map_cons, htext, ih.1 hrest]
    · intro h
      cases texts with
      | nil => cases h
      | cons text texts =>
        obtain ⟨htext, hrest⟩ := List.cons.inj h
        exact ⟨text, htext, texts, ih.2 hrest, rfl⟩

mutual

/-- Over several lines, too, a value can be serialised exactly if every string in it is UTF-8. -/
theorem dumpIndented_eq_ok : ∀ (level : ℕ) (j : Json),
    (∃ text, lib.dumpIndented level j = .ok text) ↔ j.isUtf8Text
  | level, .array items => by
    rw [Json.isUtf8Text, ← dumpIndentedItems_eq_ok (level + 2) items]
    simp only [dumpIndented, map_eq_ok]
    exact ⟨fun ⟨_, texts, h, _⟩ => ⟨texts, h⟩, fun ⟨texts, h⟩ => ⟨_, texts, h, rfl⟩⟩
  | level, .object ms => by
    rw [Json.isUtf8Text, ← dumpIndentedMembers_eq_ok (level + 2) ms]
    simp only [dumpIndented, map_eq_ok]
    exact ⟨fun ⟨_, texts, h, _⟩ => ⟨texts, h⟩, fun ⟨texts, h⟩ => ⟨_, texts, h, rfl⟩⟩
  | _, .string s => by rw [dumpIndented, dump_eq_ok]
  | _, .null => iff_of_true ⟨_, rfl⟩ rfl
  | _, .boolean _ => iff_of_true ⟨_, rfl⟩ rfl
  | _, .integer _ => iff_of_true ⟨_, rfl⟩ rfl
  | _, .unsigned _ => iff_of_true ⟨_, rfl⟩ rfl
  | _, .float _ => iff_of_true ⟨_, rfl⟩ rfl

theorem dumpIndentedItems_eq_ok : ∀ (level : ℕ) (items : List Json),
    (∃ texts, lib.dumpIndentedItems level items = .ok texts) ↔ Json.areUtf8Texts items
  | _, [] => iff_of_true ⟨_, rfl⟩ rfl
  | level, j :: js => by
    rw [Json.areUtf8Texts, Bool.and_eq_true, ← dumpIndented_eq_ok level j,
      ← dumpIndentedItems_eq_ok level js]
    simp only [dumpIndentedItems, bind_eq_ok, pure_eq_ok]
    exact ⟨fun ⟨_, text, h, texts, hs, _⟩ => ⟨⟨text, h⟩, ⟨texts, hs⟩⟩,
      fun ⟨⟨text, h⟩, ⟨texts, hs⟩⟩ => ⟨_, text, h, texts, hs, rfl⟩⟩

theorem dumpIndentedMembers_eq_ok : ∀ (level : ℕ) (ms : List (String × Json)),
    (∃ texts, lib.dumpIndentedMembers level ms = .ok texts) ↔ Json.areUtf8Members ms
  | _, [] => iff_of_true ⟨_, rfl⟩ rfl
  | level, (k, j) :: ms => by
    rw [Json.areUtf8Members, Bool.and_eq_true, Bool.and_eq_true, ← @dumpString_eq_ok lib,
      ← dumpIndented_eq_ok level j, ← dumpIndentedMembers_eq_ok level ms]
    simp only [dumpIndentedMembers, bind_eq_ok, pure_eq_ok]
    exact ⟨fun ⟨_, key, hk, text, h, texts, hs, _⟩ => ⟨⟨⟨key, hk⟩, ⟨text, h⟩⟩, ⟨texts, hs⟩⟩,
      fun ⟨⟨⟨key, hk⟩, ⟨text, h⟩⟩, ⟨texts, hs⟩⟩ => ⟨_, key, hk, text, h, texts, hs, rfl⟩⟩

end

theorem dumpString_eq_error {s : String} {e : Exn} (h : lib.dumpString s = .error e) :
    e = .json (lib.utf8Error s) := by
  rw [dumpString] at h
  split at h
  · cases h
  · exact (Except.error.inj h).symm

mutual

/-- A value that cannot be serialised holds a string that is reported. -/
theorem dump_eq_error {e : Exn} :
    ∀ j : Json, lib.dump j = .error e → ∃ s, e = .json (lib.utf8Error s)
  | .string s, h => ⟨s, dumpString_eq_error h⟩
  | .array items, h => dumpItems_eq_error items (map_eq_error.1 h)
  | .object ms, h => dumpMembers_eq_error ms (map_eq_error.1 h)
  | .null, h => nomatch h
  | .boolean _, h => nomatch h
  | .integer _, h => nomatch h
  | .unsigned _, h => nomatch h
  | .float _, h => nomatch h

theorem dumpItems_eq_error {e : Exn} : ∀ items : List Json,
    lib.dumpItems items = .error e → ∃ s, e = .json (lib.utf8Error s)
  | [], h => nomatch h
  | j :: js, h => by
    simp only [dumpItems, bind_eq_error] at h
    obtain hj | ⟨_, -, hjs | ⟨_, -, hpure⟩⟩ := h
    · exact dump_eq_error j hj
    · exact dumpItems_eq_error js hjs
    · cases hpure

theorem dumpMembers_eq_error {e : Exn} : ∀ ms : List (String × Json),
    lib.dumpMembers ms = .error e → ∃ s, e = .json (lib.utf8Error s)
  | [], h => nomatch h
  | (k, j) :: ms, h => by
    simp only [dumpMembers, bind_eq_error] at h
    obtain hk | ⟨_, -, hj | ⟨_, -, hms | ⟨_, -, hpure⟩⟩⟩ := h
    · exact ⟨k, dumpString_eq_error hk⟩
    · exact dump_eq_error j hj
    · exact dumpMembers_eq_error ms hms
    · cases hpure

end

/-- A library to evaluate the model with, on inputs that are not parsed and hold no
    `double` but zero. -/
def sample : JsonLibrary where
  parse _ := .error "[json.exception.parse_error.101] parse error"
  extract _ := .error "[json.exception.parse_error.101] parse error"
  showFloat _ := "0.0"
  utf8Error _ := "[json.exception.type_error.316] invalid UTF-8 byte"

/-- The same library, which also knows how to parse one text. -/
def knowing (text : String) (j : Json) : JsonLibrary :=
  { sample with parse := fun s => if s = text then .ok j else sample.parse s }

end JsonLibrary

/-- The answer to a lookup. -/
structure LookupResult where
  data : Json
  cacheHit : Bool := false

end IpServer
