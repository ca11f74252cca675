import IpServer.Conversions
import Mathlib.Data.Finset.Card

/-!
# API keys

The server keeps the hashes of its keys, in hexadecimal; the hash function is a
parameter. Keys are added one by one, or loaded from a file, a key a line.
-/

namespace IpServer

/-- `SHA256` of a text: the bytes of the digest. -/
abbrev Sha256 := String → Fin 32 → UInt8

/-- The digits of `sha256Hash`. -/
def hex : List Char := "0123456789abcdef".toList

/-- `sha256Hash`. -/
def sha256Hash (sha256 : Sha256) (input : String) : String :=
  String.ofList ((List.finRange 32).flatMap fun i =>
    [hex.getD (sha256 input i >>> 4).toNat ' ', hex.getD (sha256 input i &&& 0xf).toNat ' '])

/-- The hashes of the keys. -/
structure APIAuth where
  apiKeyHashes : Finset String := ∅

/-- The lines that `std::getline` reads. -/
def getlines (content : List Char) : List (List Char) :=
  let lines := content.splitOn '\n'
  if lines.getLast? = some [] then lines.dropLast else lines

/-- The key on a line of a key file, if there is one. -/
def keyOfLine (line : List Char) : Option String :=
  match line with
  | [] => none
  | '#' :: _ => none
  | line => (trimmed [' ', '\t', '\r', '\n'] line).map String.ofList

namespace APIAuth

variable (sha256 : Sha256) (auth : APIAuth)

/-- `add_key`. -/
def addKey (key : String) : APIAuth :=
  if key = "" then auth
  else { auth with apiKeyHashes := insert (sha256Hash sha256 key) auth.apiKeyHashes }

/-- `is_valid`. -/
def isValid (key : String) : Bool :=
  if key = "" then false else decide (sha256Hash sha256 key ∈ auth.apiKeyHashes)

/-- `load_keys_from_file`, given the content of the file if it can be opened. -/
def loadKeysFromFile (file : Option String) : APIAuth :=
  match file with
  | none => auth
  | some content =>
    (getlines content.toList).foldl
      (fun auth line =>
        match keyOfLine line with
        | none => auth
        | some key =>
          { auth with apiKeyHashes := insert (sha256Hash sha256 key) auth.apiKeyHashes })
      { auth with apiKeyHashes := ∅ }

/-- `key_count`. -/
def keyCount : ℕ := auth.apiKeyHashes.card

end APIAuth

end IpServer
