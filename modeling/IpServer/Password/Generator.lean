import IpServer.Basic
import Mathlib.Data.List.FinRange
import Mathlib.Data.Rat.Defs
import Mathlib.Logic.Equiv.Defs

/-!
# The password generator

`generate` fills a password with characters drawn from the pool of the enabled
classes, then writes, for each of these classes, one of its characters at a drawn
position, and shuffles the result.

The outcomes of the draws are a parameter (`Randomness`), which fixes the outcome
of the draw number `t` for every `t`; a function that draws takes the number of
draws made so far and returns the number made after it. The binary logarithm is a
parameter too; the entropy, a `double` in the source, is the exact product here.
-/

namespace IpServer

/-- The outcomes of the draws. -/
structure Randomness where
  /-- `uniform_int_distribution(0, b)`, as draw number `t` -/
  uniform : ℕ → (b : ℕ) → Fin (b + 1)
  /-- the permutation that `std::shuffle` applies to `n` elements, as draw number `t` -/
  shuffle : ℕ → (n : ℕ) → Equiv.Perm (Fin n)

/-- What a password is to be like. -/
structure PasswordConfig where
  length : ℤ := 16
  uppercase : Bool := true
  lowercase : Bool := true
  digits : Bool := true
  symbols : Bool := true
  excludeSimilar : Bool := true
  deriving Repr, DecidableEq

/-- A password with its rating. -/
structure PasswordResult where
  password : String
  length : ℤ
  entropy : ℚ
  strength : String
  deriving DecidableEq

namespace Password

def uppercase : String := "ABCDEFGHIJKLMNOPQRSTUVWXYZ"
def lowercase : String := "abcdefghijklmnopqrstuvwxyz"
def digits : String := "0123456789"
def symbols : String := "!@#$%^&*()_+-=[]\x7b\x7d|;:,.<>?"

def confusingUpper : String := "IO"
def confusingLower : String := "ilo"
def confusingDigits : String := "01"

/-- The characters of the enabled classes, together and class by class. -/
structure CharacterSets where
  pool : List Char
  requiredChars : List (List Char)
  deriving DecidableEq

/-- The characters of a class without those that are confusable, if these are excluded. -/
def filtered (config : PasswordConfig) (chars : String) (confusable : Option String) :
    List Char :=
  match confusable with
  | none => chars.toList
  | some confusable =>
    if config.excludeSimilar then
      confusable.toList.foldl (fun filtered c => filtered.filter (· ≠ c)) chars.toList
    else chars.toList

/-- The lambda `addSet` of `build_character_sets`. -/
def addSet (config : PasswordConfig) (chars : String) (confusable : Option String)
    (enabled : Bool) (sets : CharacterSets) : CharacterSets :=
  if !enabled then sets
  else
    let filtered := filtered config chars confusable
    { pool := sets.pool ++ filtered
      requiredChars :=
        if filtered.isEmpty then sets.requiredChars else sets.requiredChars ++ [filtered] }

/-- `build_character_sets`. -/
def buildCharacterSets (config : PasswordConfig) : CharacterSets :=
  let sets : CharacterSets := ⟨[], []⟩
  let sets := addSet config uppercase (some confusingUpper) config.uppercase sets
  let sets := addSet config lowercase (some confusingLower) config.lowercase sets
  let sets := addSet config digits (some confusingDigits) config.digits sets
  addSet config symbols none config.symbols sets

/-- `calculate_entropy`. -/
def calculateEntropy (log2 : ℕ → ℚ) (password : List Char) (poolSize : ℕ) : ℚ :=
  if password.isEmpty || poolSize = 0 then 0 else password.length * log2 poolSize

/-- `get_strength_rating`. -/
def getStrengthRating (entropy : ℚ) : String :=
  if entropy < 28 then "very_weak"
  else if entropy < 36 then "weak"
  else if entropy < 60 then "fair"
  else if entropy < 80 then "strong"
  else "very_strong"

/-- `validate_config`: the error message, if the configuration is rejected. -/
def validateConfig (config : PasswordConfig) : Option String :=
  if config.length < 8 then some "Password length must be at least 8 characters"
  else if config.length > 128 then some "Password length must not exceed 128 characters"
  else if !config.uppercase && !config.lowercase && !config.digits && !config.symbols then
    some "At least one character type must be enabled"
  else none

variable (r : Randomness) (log2 : ℕ → ℚ)

/-- `s[i]`. -/
def charAt (s : List Char) (i : ℕ) : Char := s.getD i ' '

/-- The loop that fills the password from the pool, after `t` draws. -/
def fill (pool : List Char) (t n : ℕ) : List Char :=
  (List.range n).map fun i => charAt pool (r.uniform (t + i) (pool.length - 1))

/-- One round of the loop over the classes, on the number of draws made and the password. -/
def require (n : ℕ) (s : ℕ × List Char) (charSet : List Char) : ℕ × List Char :=
  if charSet.isEmpty then s
  else
    let pos := r.uniform s.1 (n - 1)
    let c := charAt charSet (r.uniform (s.1 + 1) (charSet.length - 1))
    (s.1 + 2, s.2.set pos c)

/-- `std::shuffle`. -/
def shuffled (t : ℕ) (password : List Char) : List Char :=
  List.ofFn fun i => password.get (r.shuffle t password.length i)

/-- `generate`, after `t` draws. -/
def generate (config : PasswordConfig) (t : ℕ) : Except Exn PasswordResult × ℕ :=
  match validateConfig config with
  | some errorMessage => (.error (.invalidArgument errorMessage), t)
  | none =>
    let sets := buildCharacterSets config
    if sets.pool.isEmpty then (.error (.invalidArgument "Character pool is empty"), t)
    else
      let n := config.length.toNat
      let password := fill r sets.pool t n
      let (t, password) := sets.requiredChars.foldl (require r n) (t + n, password)
      let password := shuffled r t password
      let entropy := calculateEntropy log2 password sets.pool.length
      (.ok ⟨String.ofList password, password.length, entropy, getStrengthRating entropy⟩, t + 1)

/-- The loop of `generate_batch`. -/
def generateLoop (config : PasswordConfig) : ℕ → ℕ → Except Exn (List PasswordResult) × ℕ
  | 0, t => (.ok [], t)
  | count + 1, t =>
    match generate r log2 config t with
    | (.error e, t) => (.error e, t)
    | (.ok result, t) =>
      match generateLoop config count t with
      | (.error e, t) => (.error e, t)
      | (.ok results, t) => (.ok (result :: results), t)

/-- `generate_batch`, after `t` draws. -/
def generateBatch (config : PasswordConfig) (count : ℤ) (t : ℕ) :
    Except Exn (List PasswordResult) × ℕ :=
  if count ≤ 0 then (.error (.invalidArgument "Count must be positive"), t)
  else generateLoop r log2 config count.toNat t

/-- Draws whose outcome is always the first one. -/
def firstDraws : Randomness := ⟨fun _ _ => 0, fun _ _ => Equiv.refl _⟩

end Password

end IpServer
