import IpServer.Auth
import IpServer.Library.Machine
import Mathlib.Data.Finset.Option
import Mathlib.Data.Set.Function

/-!
# The store of API keys

What the keys of a key file are is said of its lines: a line holds a key, without the
blanks at its ends, unless nothing is left of it or what is left is a comment
(`keysOf`). The source looks for the `#` of a comment before it takes the blanks off,
so that a comment that is indented becomes a key (`keyOfLine_eq`).

The store is a machine that keys are added to and files loaded into. Which keys it
accepts is said of its history: those of the last file that could be opened, and
those added since (`granted`). Provided that no two keys in play have the same hash,
it accepts exactly these if and only if every indented comment of the last file has
been added as a key since (`accepts_granted_iff`).
-/

namespace IpServer

/-! ## Hashes -/

theorem hexDigit_inj : ∀ m < 16, ∀ n < 16, hex.getD m ' ' = hex.getD n ' ' → m = n := by
  decide +kernel

/-- The two digits of a byte determine it. -/
theorem hexByte_inj {a b : UInt8}
    (hhigh : hex.getD (a >>> 4).toNat ' ' = hex.getD (b >>> 4).toNat ' ')
    (hlow : hex.getD (a &&& 0xf).toNat ' ' = hex.getD (b &&& 0xf).toNat ' ') : a = b := by
  have hshift : ∀ c : UInt8, (c >>> 4).toNat = c.toNat / 16 := fun c => by
    rw [UInt8.toNat_shiftRight, Nat.shiftRight_eq_div_pow]
    rfl
  have hmask : ∀ c : UInt8, (c &&& 0xf).toNat = c.toNat % 16 := fun c => by
    rw [UInt8.toNat_and]
    exact Nat.and_two_pow_sub_one_eq_mod c.toNat 4
  have ha := a.toNat_lt
  have hb := b.toNat_lt
  rw [hshift, hshift] at hhigh
  rw [hmask, hmask] at hlow
  have hdiv := hexDigit_inj _ (by omega) _ (by omega) hhigh
  have hmod := hexDigit_inj _ (Nat.mod_lt _ (by decide)) _ (Nat.mod_lt _ (by decide)) hlow
  exact UInt8.toNat_inj.1 (by omega)

/-- A text put together from pairs determines them. -/
theorem flatMap_pair_inj {ι α : Type*} {f g f' g' : ι → α} {is : List ι}
    (h : (is.flatMap fun i => [f i, g i]) = is.flatMap fun i => [f' i, g' i]) :
    ∀ i ∈ is, f i = f' i ∧ g i = g' i := by
  induction is with
  | nil => exact fun _ hi => absurd hi List.not_mem_nil
  | cons i is ih =>
    simp only [List.flatMap_cons, List.cons_append, List.nil_append, List.cons.injEq] at h
    obtain ⟨hf, hg, hrest⟩ := h
    intro j hj
    rcases List.mem_cons.1 hj with rfl | hj
    · exact ⟨hf, hg⟩
    · exact ih hrest j hj

/-- Two digests with the same digits are the same. -/
theorem sha256Hash_inj {sha256 : Sha256} {s t : String}
    (h : sha256Hash sha256 s = sha256Hash sha256 t) : sha256 s = sha256 t := by
  funext i
  obtain ⟨hhigh, hlow⟩ := flatMap_pair_inj (String.ofList_inj.1 h) i (List.mem_finRange i)
  exact hexByte_inj hhigh hlow

/-! ## Key files -/

/-- What `load_keys_from_file` takes off the ends of a line. -/
def blanks : List Char := [' ', '\t', '\r', '\n']

/-- A line without the blanks at its ends. -/
def stripped (line : List Char) : List Char :=
  (line.dropWhile (blanks.contains ·)).rdropWhile (blanks.contains ·)

/-- The key that a line is meant to hold: none if it is blank or a comment. -/
def meantKey (line : List Char) : Option String :=
  match stripped line with
  | [] => none
  | '#' :: _ => none
  | text => some (String.ofList text)

/-- The text of a comment that does not start its line. -/
def indentedComment (line : List Char) : Option String :=
  match line with
  | '#' :: _ => none
  | line =>
    match stripped line with
    | '#' :: text => some (String.ofList ('#' :: text))
    | _ => none

/-- The keys that a file is meant to hold. -/
def keysOf (content : String) : Finset String :=
  ((content.toList.splitOn '\n').filterMap meantKey).toFinset

/-- The texts of the indented comments of a file. -/
def indentedComments (content : String) : Finset String :=
  ((content.toList.splitOn '\n').filterMap indentedComment).toFinset

/-- The keys that the source reads from a file. -/
def keysRead (content : String) : Finset String :=
  ((getlines content.toList).filterMap keyOfLine).toFinset

/-- Trimming a line gives what is left of it, if anything. -/
theorem trimmed_blanks (line : List Char) :
    trimmed blanks line = if stripped line = [] then none else some (stripped line) := by
  rw [trimmed, stripped]
  cases hdrop : line.dropWhile (blanks.contains ·) with
  | nil => rfl
  | cons c cs =>
    have hc : blanks.contains c = false := by
      have hhead := List.head?_dropWhile_not (blanks.contains ·) line
      rw [hdrop] at hhead
      exact hhead
    obtain ⟨text, htext⟩ := @exists_rdropWhile_cons (blanks.contains ·) c hc cs
    rw [htext, if_neg (List.cons_ne_nil _ _), ← htext]

/-- A line is read as the key it is meant to hold, or as an indented comment. -/
theorem keyOfLine_eq (line : List Char) :
    keyOfLine line = (meantKey line).or (indentedComment line) := by
  rw [keyOfLine.eq_def]
  split
  · rfl
  · next cs =>
    obtain ⟨text, htext⟩ := @exists_rdropWhile_cons (blanks.contains ·) '#' rfl cs
    have hstripped : stripped ('#' :: cs) = '#' :: text := htext
    rw [meantKey, hstripped]
    rfl
  · next hnil hcomment =>
    -- trimmed, the line may start with a `#` that was behind blanks
    have htrimmed : trimmed [' ', '\t', '\r', '\n'] line =
        if stripped line = [] then none else some (stripped line) := trimmed_blanks line
    rw [htrimmed, meantKey, indentedComment]
    · cases hstripped : stripped line with
      | nil => rfl
      | cons c text =>
        by_cases hc : c = '#'
        · subst hc
          rfl
        · rw [if_neg (List.cons_ne_nil _ _)]
          split
          · next heq => cases heq
          · next heq => exact absurd (List.cons_eq_cons.1 heq).1 hc
          · rfl
    · exact hcomment

/-- A key that a line is meant to hold is a text that does not start as a comment does. -/
theorem head?_of_meantKey {line : List Char} {key : String} (h : meantKey line = some key) :
    key ≠ "" ∧ key.toList.head? ≠ some '#' := by
  rw [meantKey] at h
  split at h
  · cases h
  · cases h
  · next hnil hcomment =>
    obtain rfl := Option.some_inj.1 h
    rw [String.toList_ofList]
    constructor
    · intro hempty
      exact hnil (String.ofList_inj.1 hempty)
    · intro hhead
      obtain ⟨text, htext⟩ := List.head?_eq_some_iff.1 hhead
      exact hcomment text htext

/-- An indented comment starts as a comment does, and its line is not meant to hold a key. -/
theorem head?_of_indentedComment {line : List Char} {key : String}
    (h : indentedComment line = some key) : meantKey line = none ∧ key.toList.head? = some '#' := by
  rw [indentedComment.eq_def] at h
  split at h
  · cases h
  · split at h
    · next text hstripped =>
      obtain rfl := Option.some_inj.1 h
      rw [meantKey, hstripped, String.toList_ofList]
      exact ⟨rfl, rfl⟩
    · cases h

/-- The keys read from a file are those it is meant to hold, and its indented comments. -/
theorem keysRead_eq (content : String) :
    keysRead content = keysOf content ∪ indentedComments content := by
  have hlines : (getlines content.toList).filterMap keyOfLine =
      (content.toList.splitOn '\n').filterMap keyOfLine := by
    rw [getlines]
    split
    · next hlast =>
      obtain ⟨init, hinit⟩ := List.getLast?_eq_some_iff.1 hlast
      rw [hinit, List.dropLast_concat, List.filterMap_append]
      exact (List.append_nil _).symm
    · rfl
  ext key
  rw [keysRead, hlines, keysOf, indentedComments]
  simp only [List.mem_toFinset, List.mem_filterMap, Finset.mem_union, keyOfLine_eq]
  constructor
  · rintro ⟨line, hline, hkey⟩
    rcases Option.or_eq_some_iff.1 hkey with hkey | ⟨-, hkey⟩
    · exact .inl ⟨line, hline, hkey⟩
    · exact .inr ⟨line, hline, hkey⟩
  · rintro (⟨line, hline, hkey⟩ | ⟨line, hline, hkey⟩)
    · exact ⟨line, hline, Option.or_eq_some_iff.2 (.inl hkey)⟩
    · refine ⟨line, hline, Option.or_eq_some_iff.2 (.inr ⟨?_, hkey⟩)⟩
      exact (head?_of_indentedComment hkey).1

/-! ## The store -/

/-- What is done to the store: a key is added, or a file is loaded, if it can be opened. -/
inductive AuthOp
  | addKey (key : String)
  | loadKeysFromFile (file : Option String)

/-- What the store answers: whether a file was loaded. -/
inductive AuthAnswer
  | added
  | loaded (ok : Bool)
  deriving DecidableEq

/-- The content of the file that an operation loads. -/
def AuthOp.file? : AuthOp → Option String
  | .addKey _ => none
  | .loadKeysFromFile file => file

/-- The key that an operation adds. -/
def AuthOp.key? : AuthOp → Option String
  | .addKey key => if key = "" then none else some key
  | .loadKeysFromFile _ => none

/-- The keys that an operation brings into play. -/
def AuthOp.keys (op : AuthOp) : Finset String :=
  op.key?.toFinset ∪ op.file?.elim ∅ keysRead

namespace APIAuth

variable (sha256 : Sha256)

/-- The store as a machine. -/
def step : Machine APIAuth AuthOp AuthAnswer
  | auth, .addKey key => (.added, auth.addKey sha256 key)
  | auth, .loadKeysFromFile file => (.loaded file.isSome, auth.loadKeysFromFile sha256 file)

/-- The content of the last file that was loaded. -/
def lastFile (ops : List AuthOp) : Option String := ops.reverse.findSome? AuthOp.file?

/-- The keys added since the last file was loaded, or ever, if none was. -/
def addedSince (ops : List AuthOp) : Finset String :=
  ((ops.reverse.takeWhile fun op => op.file?.isNone).filterMap AuthOp.key?).toFinset

/-- The keys that are to be accepted after some operations. -/
def granted (ops : List AuthOp) : Finset String := (lastFile ops).elim ∅ keysOf ∪ addedSince ops

/-- The indented comments of the last file that was loaded. -/
def slipped (ops : List AuthOp) : Finset String := (lastFile ops).elim ∅ indentedComments

variable {sha256} {ops : List AuthOp}

theorem lastFile_concat (op : AuthOp) : lastFile (ops ++ [op]) = op.file?.or (lastFile ops) := by
  rw [lastFile, List.reverse_concat, List.findSome?_cons, lastFile]
  cases op.file? with
  | none => rfl
  | some file => rfl

theorem addedSince_concat (op : AuthOp) : addedSince (ops ++ [op]) =
    if op.file? = none then op.key?.toFinset ∪ addedSince ops else ∅ := by
  rw [addedSince, List.reverse_concat, List.takeWhile_cons, addedSince]
  cases op.file? with
  | some file => rfl
  | none =>
    rw [Option.isNone_none, if_pos rfl, if_pos rfl, List.filterMap_cons]
    cases op.key? with
    | none => simp
    | some key => simp

/-- A file is loaded by inserting the hashes of its keys. -/
theorem loadKeysFromFile_eq (auth : APIAuth) (content : String) :
    (auth.loadKeysFromFile sha256 (some content)).apiKeyHashes =
      (keysRead content).image (sha256Hash sha256) := by
  obtain ⟨start, hstart⟩ : ∃ start : APIAuth, start = { auth with apiKeyHashes := ∅ } := ⟨_, rfl⟩
  have hempty : start.apiKeyHashes = ∅ := by rw [hstart]
  rw [keysRead, ← Finset.empty_union (Finset.image (sha256Hash sha256) _), ← hempty]
  dsimp only [loadKeysFromFile]
  rw [← hstart]
  clear hstart hempty
  induction getlines content.toList generalizing start with
  | nil => exact (Finset.union_empty _).symm
  | cons line lines ih =>
    rw [List.foldl_cons, ih, List.filterMap_cons]
    cases keyOfLine line with
    | none => rfl
    | some key =>
      rw [List.toFinset_cons, Finset.image_insert, Finset.union_insert, Finset.insert_union]

/-- A key is added by inserting its hash, unless it is empty. -/
theorem apiKeyHashes_addKey (auth : APIAuth) (key : String) :
    (auth.addKey sha256 key).apiKeyHashes =
      (AuthOp.addKey key).key?.toFinset.image (sha256Hash sha256) ∪ auth.apiKeyHashes := by
  rw [addKey, AuthOp.key?]
  split
  · exact (Finset.empty_union _).symm
  · exact Finset.insert_eq _ _

/-- The store holds the hashes of the keys to be accepted, and of the comments that slipped
    through. -/
theorem apiKeyHashes_run (ops : List AuthOp) : ((step sha256).run {} ops).apiKeyHashes =
    (granted ops ∪ slipped ops).image (sha256Hash sha256) := by
  induction ops using List.reverseRecOn with
  | nil => rfl
  | append_singleton ops op ih =>
    rw [Machine.run_concat, granted, slipped, lastFile_concat, addedSince_concat]
    match op with
    | .addKey key =>
      rw [step, apiKeyHashes_addKey, ih, ← Finset.image_union, ← Finset.union_assoc, granted,
        Finset.union_left_comm]
      rfl
    | .loadKeysFromFile none =>
      rw [step, loadKeysFromFile, ih, granted, slipped]
      exact congrArg (fun added => Finset.image _ (_ ∪ added ∪ _)) (Finset.empty_union _).symm
    | .loadKeysFromFile (some content) =>
      rw [step, loadKeysFromFile_eq, keysRead_eq]
      exact congrArg (fun read => Finset.image _ (read ∪ _)) (Finset.union_empty _).symm

/-- A key that is to be accepted, or slipped through, was brought into play. -/
theorem exists_keys_of_mem {key : String} (h : key ∈ granted ops ∪ slipped ops) :
    ∃ op ∈ ops, key ∈ op.keys := by
  have hfile : ∀ content, lastFile ops = some content → key ∈ keysRead content →
      ∃ op ∈ ops, key ∈ op.keys := fun content hlast hkey => by
    obtain ⟨op, hop, hcontent⟩ := List.exists_of_findSome?_eq_some hlast
    refine ⟨op, List.mem_reverse.1 hop, Finset.mem_union_right _ ?_⟩
    rw [hcontent]
    exact hkey
  rw [granted, slipped, Finset.union_right_comm, Finset.mem_union] at h
  rcases h with hread | hadded
  · cases hlast : lastFile ops with
    | none =>
      rw [hlast] at hread
      cases hread
    | some content =>
      rw [hlast] at hread
      exact hfile content hlast (keysRead_eq content ▸ hread)
  · obtain ⟨op, hop, hkey⟩ := List.mem_filterMap.1 (List.mem_toFinset.1 hadded)
    refine ⟨op, List.mem_reverse.1 ((List.takeWhile_sublist _).subset hop),
      Finset.mem_union_left _ ?_⟩
    exact Option.mem_toFinset.2 hkey

/-- A key in play is not empty. -/
theorem ne_empty_of_mem_keys {op : AuthOp} {key : String} (h : key ∈ op.keys) : key ≠ "" := by
  rcases Finset.mem_union.1 h with hkey | hread
  · rw [Option.mem_toFinset, Option.mem_def] at hkey
    match op with
    | .addKey key' =>
      rw [AuthOp.key?] at hkey
      split at hkey
      · cases hkey
      · next hne => exact Option.some_inj.1 hkey ▸ hne
    | .loadKeysFromFile _ => cases hkey
  · match op with
    | .addKey _ => cases hread
    | .loadKeysFromFile none => cases hread
    | .loadKeysFromFile (some content) =>
      have hread : key ∈ keysRead content := hread
      rw [keysRead_eq, Finset.mem_union] at hread
      rcases hread with hmeant | hcomment
      · obtain ⟨line, -, hline⟩ := List.mem_filterMap.1 (List.mem_toFinset.1 hmeant)
        exact (head?_of_meantKey hline).1
      · obtain ⟨line, -, hline⟩ := List.mem_filterMap.1 (List.mem_toFinset.1 hcomment)
        rintro rfl
        cases (head?_of_indentedComment hline).2

/-- A comment that slipped through is no key of the file: if it is to be accepted, it was added. -/
theorem slipped_subset_iff : slipped ops ⊆ granted ops ↔ slipped ops ⊆ addedSince ops := by
  refine ⟨fun h key hkey => ?_, fun h => h.trans Finset.subset_union_right⟩
  rcases Finset.mem_union.1 (h hkey) with hmeant | hadded
  · cases hlast : lastFile ops with
    | none =>
      rw [slipped, hlast] at hkey
      cases hkey
    | some content =>
      rw [slipped, hlast] at hkey
      rw [hlast] at hmeant
      obtain ⟨line, -, hline⟩ := List.mem_filterMap.1 (List.mem_toFinset.1 hmeant)
      obtain ⟨line', -, hline'⟩ := List.mem_filterMap.1 (List.mem_toFinset.1 hkey)
      exact absurd (head?_of_indentedComment hline').2 (head?_of_meantKey hline).2
  · exact hadded

variable {keys : Set String}

/-- A key is accepted if its hash is that of a key held. -/
theorem isValid_iff (hkeys : ∀ op ∈ ops, ↑op.keys ⊆ keys) (hinj : Set.InjOn sha256 keys)
    {key : String} (hkey : key ∈ keys) :
    ((step sha256).run {} ops).isValid sha256 key = true ↔ key ∈ granted ops ∪ slipped ops := by
  have hheld : ∀ key ∈ granted ops ∪ slipped ops, key ∈ keys ∧ key ≠ "" := fun key hmem => by
    obtain ⟨op, hop, hmem⟩ := exists_keys_of_mem hmem
    exact ⟨hkeys op hop hmem, ne_empty_of_mem_keys hmem⟩
  rw [isValid, apiKeyHashes_run]
  split
  · next hempty => exact iff_of_false Bool.false_ne_true fun hmem => (hheld key hmem).2 hempty
  · rw [decide_eq_true_iff, Finset.mem_image]
    constructor
    · rintro ⟨key', hmem, hhash⟩
      rwa [← hinj (hheld key' hmem).1 hkey (sha256Hash_inj hhash)]
    · exact fun hmem => ⟨key, hmem, rfl⟩

/-- As many hashes are held as keys. -/
theorem keyCount_run (hkeys : ∀ op ∈ ops, ↑op.keys ⊆ keys) (hinj : Set.InjOn sha256 keys) :
    ((step sha256).run {} ops).keyCount = (granted ops ∪ slipped ops).card := by
  rw [keyCount, apiKeyHashes_run]
  refine Finset.card_image_of_injOn fun key hkey key' hkey' hhash => ?_
  obtain ⟨op, hop, hmem⟩ := exists_keys_of_mem hkey
  obtain ⟨op', hop', hmem'⟩ := exists_keys_of_mem hkey'
  exact hinj (hkeys op hop hmem) (hkeys op' hop' hmem') (sha256Hash_inj hhash)

/-- When the store accepts exactly the keys of the last file loaded and those added since, and
    counts them right: if and only if every comment of the file that is indented was added as a
    key since. A load that fails changes nothing. (The keys in play have different hashes.) -/
theorem accepts_granted_iff (sha256 : Sha256) (ops : List AuthOp) (keys : Set String)
    (hkeys : ∀ op ∈ ops, ↑op.keys ⊆ keys) (hinj : Set.InjOn sha256 keys) :
    let auth := (step sha256).run {} ops
    (((∀ key ∈ keys, auth.isValid sha256 key = true ↔ key ∈ granted ops) ∧
        auth.keyCount = (granted ops).card) ↔
      slipped ops ⊆ addedSince ops) ∧
    ∀ op, (step sha256 auth op).1 = .loaded false → (step sha256 auth op).2 = auth := by
  intro auth
  refine ⟨?_, fun op hfailed => ?_⟩
  · rw [← slipped_subset_iff]
    constructor
    · rintro ⟨haccepts, -⟩ key hkey
      have hheld := Finset.mem_union_right (granted ops) hkey
      obtain ⟨op, hop, hmem⟩ := exists_keys_of_mem hheld
      have hmem' := hkeys op hop hmem
      exact (haccepts key hmem').1 ((isValid_iff hkeys hinj hmem').2 hheld)
    · intro hsub
      have hheld : granted ops ∪ slipped ops = granted ops := Finset.union_eq_left.2 hsub
      refine ⟨fun key hkey => ?_, ?_⟩
      · rw [isValid_iff hkeys hinj hkey, hheld]
      · rw [keyCount_run hkeys hinj, hheld]
  · match op with
    | .addKey _ => cases hfailed
    | .loadKeysFromFile none => rfl
    | .loadKeysFromFile (some _) => cases hfailed

/-- A file with a key and an indented comment, which is added as a key, too. -/
def commentAdded : List AuthOp := [.loadKeysFromFile (some "a\n # b\n"), .addKey "# b"]

theorem accepts_granted_commentAdded :
    let sha256 : Sha256 := fun s _ => s.length.toUInt8
    let auth := (step sha256).run {} commentAdded
    (∀ key ∈ ({"a", "# b"} : Finset String), auth.isValid sha256 key = true ↔
      key ∈ granted commentAdded) ∧ auth.keyCount = (granted commentAdded).card := by
  have hkeys : ∀ op ∈ commentAdded, op.keys ⊆ ({"a", "# b"} : Finset String) := by decide +kernel
  have hinj : ∀ key ∈ ({"a", "# b"} : Finset String), ∀ key' ∈ ({"a", "# b"} : Finset String),
      key.length.toUInt8 = key'.length.toUInt8 → key = key' := by decide +kernel
  refine (accepts_granted_iff _ commentAdded ↑({"a", "# b"} : Finset String) ?_ ?_).1.2 ?_
  · exact fun op hop => Finset.coe_subset.2 (hkeys op hop)
  · exact fun key hkey key' hkey' h => hinj key hkey key' hkey' (congrFun h 0)
  · decide +kernel

/-- A file with an indented comment. -/
def commentIndented : List AuthOp := [.loadKeysFromFile (some " # off\n")]

/-- The indented comment is accepted as a key, although it is none. -/
theorem comment_accepted :
    let sha256 : Sha256 := fun _ _ => 0
    let auth := (step sha256).run {} commentIndented
    Set.InjOn sha256 {"# off"} ∧ auth.isValid sha256 "# off" = true ∧
      "# off" ∉ granted commentIndented ∧ auth.keyCount ≠ (granted commentIndented).card := by
  refine ⟨Set.injOn_singleton _ _, ?_, ?_, ?_⟩
  · decide +kernel
  · decide +kernel
  · decide +kernel

end APIAuth

end IpServer
