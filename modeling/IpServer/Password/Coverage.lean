import IpServer.Library.Overwrite
import IpServer.Password.Generator
import Mathlib.Data.List.GetD

/-!
# Which classes a password covers

Every enabled class gets one character written at a drawn position, but a class
that comes later may be drawn the same position and overwrite it. So a generated
password has a character of every enabled class exactly if each class is spared
(`Spared`): its position is not drawn again for a later class, or the pool gave a
character of the class to a position that no class was drawn.

* `buildCharacterSets_eq`: the sets the generator works with are those of the enabled
  classes, in order; the classes are disjoint (`CharClass.disjoint`).
* `requireAll_eq`: the loop over the classes is a sequence of writes.
* `generate_covers_iff`: a password covers every enabled class exactly if all of
  them are spared.
-/

namespace IpServer

namespace Password

/-- The classes of characters, in the order the generator takes them. -/
inductive CharClass
  | uppercase
  | lowercase
  | digits
  | symbols
  deriving DecidableEq, Repr

namespace CharClass

/-- All classes, in order. -/
def all : List CharClass := [uppercase, lowercase, digits, symbols]

variable (config : PasswordConfig)

/-- The class is enabled. -/
def enabled : CharClass → Bool
  | uppercase => config.uppercase
  | lowercase => config.lowercase
  | digits => config.digits
  | symbols => config.symbols

/-- The characters of the class, and those of them that look like others. -/
def alphabet : CharClass → String × String
  | uppercase => (Password.uppercase, confusingUpper)
  | lowercase => (Password.lowercase, confusingLower)
  | digits => (Password.digits, confusingDigits)
  | symbols => (Password.symbols, "")

/-- The characters of the class that the configuration admits. -/
def chars (cls : CharClass) : List Char :=
  cls.alphabet.1.toList.filter fun c => !(config.excludeSimilar && cls.alphabet.2.toList.contains c)

theorem chars_ne_nil (cls : CharClass) : cls.chars config ≠ [] := by
  unfold chars
  cases cls <;> cases config.excludeSimilar <;> decide +kernel

/-- No character is in two classes. -/
theorem disjoint {cls cls' : CharClass} {c : Char} (h : c ∈ cls.chars config)
    (h' : c ∈ cls'.chars config) : cls = cls' := by
  have hall : ∀ cls cls' : CharClass, cls ≠ cls' →
      (cls.alphabet.1.toList.all fun c => !cls'.alphabet.1.toList.contains c) = true := by
    intro cls cls' hne
    cases cls <;> cases cls' <;> first | exact absurd rfl hne | decide +kernel
  by_contra hne
  have hnot := List.all_eq_true.1 (hall cls cls' hne) c (List.mem_of_mem_filter h)
  simp [List.mem_of_mem_filter h'] at hnot

end CharClass

/-- The enabled classes, in order. -/
def enabledClasses (config : PasswordConfig) : List CharClass :=
  CharClass.all.filter (CharClass.enabled config)

/-- Removing the confusable characters one by one. -/
theorem foldl_filter (confusable chars : List Char) :
    confusable.foldl (fun filtered c => filtered.filter (· ≠ c)) chars =
      chars.filter fun c => !confusable.contains c := by
  induction confusable generalizing chars with
  | nil => simp
  | cons d ds ih =>
    rw [List.foldl_cons, ih, List.filter_filter]
    refine List.filter_congr fun c _ => ?_
    by_cases hc : c = d <;> simp [hc]

theorem filtered_eq (config : PasswordConfig) (cls : CharClass) {confusable : Option String}
    (hconf : confusable.getD "" = cls.alphabet.2) :
    filtered config cls.alphabet.1 confusable = cls.chars config := by
  unfold filtered CharClass.chars
  cases confusable with
  | none => simp [← hconf]
  | some confusable =>
    obtain rfl : confusable = cls.alphabet.2 := hconf
    cases config.excludeSimilar with
    | true => simpa using foldl_filter cls.alphabet.2.toList cls.alphabet.1.toList
    | false => simp

/-- A class that is enabled is added to the pool and to the sets. -/
theorem addSet_eq (config : PasswordConfig) (cls : CharClass) {confusable : Option String}
    (hconf : confusable.getD "" = cls.alphabet.2) (sets : CharacterSets) :
    addSet config cls.alphabet.1 confusable (cls.enabled config) sets =
      ⟨sets.pool ++ ([cls].filter (CharClass.enabled config)).flatMap (CharClass.chars config),
        sets.requiredChars ++
          ([cls].filter (CharClass.enabled config)).map (CharClass.chars config)⟩ := by
  have hne := cls.chars_ne_nil config
  cases hcls : cls.enabled config with
  | true => simp [addSet, filtered_eq config cls hconf, hcls, hne]
  | false => simp [addSet, hcls]

/-- The sets the generator works with are those of the enabled classes. -/
theorem buildCharacterSets_eq (config : PasswordConfig) : buildCharacterSets config =
    ⟨(enabledClasses config).flatMap (CharClass.chars config),
      (enabledClasses config).map (CharClass.chars config)⟩ := by
  have hall : enabledClasses config =
      [.uppercase].filter (CharClass.enabled config) ++
        [.lowercase].filter (CharClass.enabled config) ++
        [.digits].filter (CharClass.enabled config) ++
        [.symbols].filter (CharClass.enabled config) := by
    simp only [← List.filter_append]
    rfl
  have hbuild : buildCharacterSets config =
      addSet config (CharClass.alphabet .symbols).1 none (CharClass.enabled config .symbols)
        (addSet config (CharClass.alphabet .digits).1 (some confusingDigits)
          (CharClass.enabled config .digits)
          (addSet config (CharClass.alphabet .lowercase).1 (some confusingLower)
            (CharClass.enabled config .lowercase)
            (addSet config (CharClass.alphabet .uppercase).1 (some confusingUpper)
              (CharClass.enabled config .uppercase) ⟨[], []⟩))) := rfl
  rw [hbuild, addSet_eq config .uppercase rfl, addSet_eq config .lowercase rfl,
    addSet_eq config .digits rfl, addSet_eq config .symbols rfl, hall]
  simp only [List.flatMap_append, List.map_append, List.nil_append]

/-! ### The draws of a generation -/

section Draws

variable (r : Randomness) (config : PasswordConfig) (t : ℕ)

/-- The character that the pool gives to position `p`, after `t` draws. -/
def poolChar (p : ℕ) : Char :=
  charAt (buildCharacterSets config).pool
    (r.uniform (t + p) ((buildCharacterSets config).pool.length - 1))

/-- The position drawn for the enabled class number `k`. -/
def position (k : ℕ) : ℕ :=
  r.uniform (t + config.length.toNat + 2 * k) (config.length.toNat - 1)

/-- The character drawn for the enabled class number `k`. -/
def character (k : ℕ) : Char :=
  let charSet := (buildCharacterSets config).requiredChars.getD k []
  charAt charSet (r.uniform (t + config.length.toNat + 2 * k + 1) (charSet.length - 1))

/-- The enabled class number `i` keeps a character: no later class is drawn its position,
    or the pool gave one of its characters to a position that no class was drawn. -/
def Spared (i : ℕ) (cls : CharClass) : Prop :=
  (∀ j < (enabledClasses config).length, i < j → position r config t j ≠ position r config t i) ∨
    ∃ p < config.length.toNat,
      (∀ j < (enabledClasses config).length, position r config t j ≠ p) ∧
        poolChar r config t p ∈ cls.chars config

instance (i : ℕ) (cls : CharClass) : Decidable (Spared r config t i cls) :=
  inferInstanceAs (Decidable (_ ∨ _))

end Draws

variable {r : Randomness} {log2 : ℕ → ℚ} {config : PasswordConfig} {t : ℕ}

/-! ### The loop over the classes -/

theorem charAt_mem {s : List Char} {i : ℕ} (hi : i < s.length) : charAt s i ∈ s := by
  rw [charAt, List.getD_eq_getElem _ _ hi]
  exact List.getElem_mem hi

/-- The character drawn for a class is one of its characters. -/
theorem character_mem {k : ℕ} {cls : CharClass} (hk : (enabledClasses config)[k]? = some cls) :
    character r config t k ∈ cls.chars config := by
  have hset : (buildCharacterSets config).requiredChars.getD k [] = cls.chars config := by
    simp [buildCharacterSets_eq, List.getD_eq_getElem?_getD, hk]
  have hpos := List.length_pos_iff.2 (cls.chars_ne_nil config)
  simp only [character]
  rw [hset]
  exact charAt_mem (by omega)

/-- The loop over the classes is a sequence of writes. -/
theorem requireAll_eq (password : List Char) :
    (buildCharacterSets config).requiredChars.foldl (require r config.length.toNat)
        (t + config.length.toNat, password) =
      (t + config.length.toNat + 2 * (enabledClasses config).length,
        overwrite (position r config t) (character r config t) password
          (enabledClasses config).length) := by
  have hsets : (buildCharacterSets config).requiredChars =
      (enabledClasses config).map (CharClass.chars config) := by rw [buildCharacterSets_eq]
  -- the induction is on the number of classes dealt with, each of which writes once
  have htake : ∀ m ≤ (enabledClasses config).length,
      ((buildCharacterSets config).requiredChars.take m).foldl (require r config.length.toNat)
          (t + config.length.toNat, password) =
        (t + config.length.toNat + 2 * m,
          overwrite (position r config t) (character r config t) password m) := by
    intro m hm
    induction m with
    | zero => rfl
    | succ m ih =>
      have hm' : m < (buildCharacterSets config).requiredChars.length := by
        rw [hsets, List.length_map]
        exact hm
      have hne : (buildCharacterSets config).requiredChars[m].isEmpty = false := by
        simp only [hsets, List.getElem_map]
        simpa using CharClass.chars_ne_nil config _
      rw [List.take_add_one, List.getElem?_eq_getElem hm', Option.toList_some, List.foldl_append,
        ih (by omega), List.foldl_cons, List.foldl_nil, require, hne]
      have hget : (buildCharacterSets config).requiredChars.getD m [] =
          (buildCharacterSets config).requiredChars[m] := List.getD_eq_getElem _ _ hm'
      simp only [Bool.false_eq_true, if_false, overwrite, position, character]
      rw [hget]
      rfl
  have hall := htake _ le_rfl
  rwa [List.take_of_length_le (by rw [hsets, List.length_map])] at hall

theorem mem_fill {n : ℕ} {pool : List Char} {p : ℕ} {c : Char} :
    (fill r pool t n)[p]? = some c ↔
      p < n ∧ charAt pool (r.uniform (t + p) (pool.length - 1)) = c := by
  rw [fill, List.getElem?_map, Option.map_eq_some_iff]
  constructor
  · rintro ⟨i, hi, hc⟩
    obtain ⟨hp, rfl⟩ := List.getElem?_eq_some_iff.1 hi
    rw [List.getElem_range] at hc
    exact ⟨by simpa using hp, hc⟩
  · rintro ⟨hp, hc⟩
    exact ⟨p, by simp [hp], hc⟩

theorem shuffled_perm (t : ℕ) (password : List Char) : (shuffled r t password).Perm password := by
  have hperm := Equiv.Perm.ofFn_comp_perm (r.shuffle t password.length) password.get
  rwa [List.ofFn_get] at hperm

/-! ### Coverage -/

theorem length_ge (h : validateConfig config = none) : 8 ≤ config.length := by
  by_contra hlt
  rw [validateConfig, if_pos (by omega)] at h
  cases h

theorem enabledClasses_ne_nil (h : validateConfig config = none) : enabledClasses config ≠ [] := by
  intro hnil
  have hnone : ∀ cls ∈ CharClass.all, ¬(cls.enabled config = true) := List.filter_eq_nil_iff.1 hnil
  have hu := hnone .uppercase (by decide)
  have hl := hnone .lowercase (by decide)
  have hd := hnone .digits (by decide)
  have hs := hnone .symbols (by decide)
  simp only [CharClass.enabled, Bool.not_eq_true] at hu hl hd hs
  simp only [validateConfig, hu, hl, hd, hs, Bool.not_false, Bool.and_self, if_true] at h
  split_ifs at h

theorem pool_ne_nil (h : validateConfig config = none) : (buildCharacterSets config).pool ≠ [] := by
  rw [buildCharacterSets_eq]
  obtain ⟨cls, hcls⟩ := List.exists_mem_of_ne_nil _ (enabledClasses_ne_nil h)
  intro hnil
  exact cls.chars_ne_nil config (List.flatMap_eq_nil_iff.1 hnil cls hcls)

/-- An accepted configuration gives a password: what the pool gave, with the writes of the
    classes, in some order; and its rating. -/
theorem generate_ok (r : Randomness) (log2 : ℕ → ℚ) (h : validateConfig config = none) (t : ℕ) :
    ∃ result t', generate r log2 config t = (.ok result, t') ∧
      result.strength = getStrengthRating result.entropy ∧
      result.password.toList.Perm
        (overwrite (position r config t) (character r config t)
          (fill r (buildCharacterSets config).pool t config.length.toNat)
          (enabledClasses config).length) := by
  have hpool : (buildCharacterSets config).pool.isEmpty = false := by
    simpa using pool_ne_nil h
  simp only [generate, h, hpool, requireAll_eq, Bool.false_eq_true, if_false]
  refine ⟨_, _, rfl, rfl, ?_⟩
  simpa using shuffled_perm _ _

theorem position_lt (h : validateConfig config = none) (k : ℕ) :
    position r config t k < config.length.toNat := by
  have hlen := length_ge h
  have hlt := (r.uniform (t + config.length.toNat + 2 * k) (config.length.toNat - 1)).isLt
  rw [position]
  omega

/-- Every character of a password is one of an enabled class. -/
theorem exists_class_of_mem (h : validateConfig config = none) {c : Char}
    (hc : c ∈ overwrite (position r config t) (character r config t)
      (fill r (buildCharacterSets config).pool t config.length.toNat)
      (enabledClasses config).length) : ∃ cls ∈ enabledClasses config, c ∈ cls.chars config := by
  rw [mem_overwrite fun k _ => by simpa [fill] using position_lt h k] at hc
  rcases hc with ⟨k, hk, rfl, -⟩ | ⟨p, -, hp⟩
  · exact ⟨_, List.getElem_mem hk, character_mem (List.getElem?_eq_getElem hk)⟩
  · obtain ⟨-, rfl⟩ := mem_fill.1 hp
    have hpos := List.length_pos_iff.2 (pool_ne_nil h)
    have hlt := (r.uniform (t + p) ((buildCharacterSets config).pool.length - 1)).isLt
    have hmem := charAt_mem (s := (buildCharacterSets config).pool)
      (i := r.uniform (t + p) ((buildCharacterSets config).pool.length - 1)) (by omega)
    rw [buildCharacterSets_eq] at hmem ⊢
    exact List.mem_flatMap.1 hmem

/-- A generated password has a character of an enabled class exactly if the class is spared. -/
theorem exists_mem_iff_spared (h : validateConfig config = none) {result : PasswordResult}
    {t' : ℕ} (hresult : generate r log2 config t = (.ok result, t')) {i : ℕ} {cls : CharClass}
    (hi : (enabledClasses config)[i]? = some cls) :
    (∃ c ∈ result.password.toList, c ∈ cls.chars config) ↔ Spared r config t i cls := by
  obtain ⟨result', _, hgen, -, hperm⟩ := generate_ok r log2 h t
  obtain rfl : result = result' := by
    rw [hresult, Prod.mk.injEq, Except.ok.injEq] at hgen
    exact hgen.1
  have hlen : (fill r (buildCharacterSets config).pool t config.length.toNat).length =
      config.length.toNat := by simp [fill]
  have hin : i < (enabledClasses config).length := (List.getElem?_eq_some_iff.1 hi).1
  have hmem : ∀ c, c ∈ result.password.toList ↔ _ := fun c =>
    hperm.mem_iff.trans (mem_overwrite fun k _ => by rw [hlen]; exact position_lt h k)
  constructor
  · rintro ⟨c, hc, hcls⟩
    rcases (hmem c).1 hc with ⟨k, hk, rfl, hlater⟩ | ⟨p, hp, hget⟩
    · -- the character was written for a class, which can only be the class itself
      have hmem' := character_mem (r := r) (t := t) (List.getElem?_eq_getElem hk)
      have hcls' := CharClass.disjoint config hmem' hcls
      have hki : k = i := by
        have hcls := hcls'.trans (List.getElem?_eq_some_iff.1 hi).2.symm
        refine (List.Nodup.getElem_inj_iff ?_).1 hcls
        exact List.Nodup.filter _ (by decide)
      subst hki
      exact .inl fun j hj hlt => hlater j hlt hj
    · obtain ⟨hplen, rfl⟩ := mem_fill.1 hget
      exact .inr ⟨p, hplen, hp, hcls⟩
  · rintro (hlater | ⟨p, hp, hnone, hcls⟩)
    · exact ⟨_, (hmem _).2 (.inl ⟨i, hin, rfl, fun j hlt hj => hlater j hj hlt⟩), character_mem hi⟩
    · exact ⟨_, (hmem _).2 (.inr ⟨p, hnone, mem_fill.2 ⟨hp, rfl⟩⟩), hcls⟩

/-- A password of an accepted configuration has a character of every enabled class exactly
    if every enabled class is spared by the draws. -/
theorem generate_covers_iff (r : Randomness) (log2 : ℕ → ℚ) (t : ℕ) {config : PasswordConfig}
    (h : validateConfig config = none) :
    (∃ result, (generate r log2 config t).1 = .ok result ∧
      ∀ cls ∈ enabledClasses config, ∃ c ∈ result.password.toList, c ∈ cls.chars config) ↔
    ∀ i cls, (enabledClasses config)[i]? = some cls → Spared r config t i cls := by
  obtain ⟨result, t', hgen, -⟩ := generate_ok r log2 h t
  constructor
  · rintro ⟨result', hresult, hall⟩ i cls hi
    obtain rfl : result = result' := by
      rw [hgen, Except.ok.injEq] at hresult
      exact hresult
    exact (exists_mem_iff_spared h hgen hi).1 (hall cls (List.mem_of_getElem? hi))
  · intro hall
    refine ⟨result, by rw [hgen], fun cls hcls => ?_⟩
    obtain ⟨i, hi⟩ := List.mem_iff_getElem?.1 hcls
    exact (exists_mem_iff_spared h hgen hi).2 (hall i cls hi)

/-- Draws that go round: no two classes are drawn the same position. -/
def roundDraws : Randomness :=
  ⟨fun t b => ⟨t % (b + 1), Nat.mod_lt t b.succ_pos⟩, fun _ _ => Equiv.refl _⟩

theorem generate_covers_roundDraws :
    ∃ result, (generate roundDraws (fun _ => 6) {} 0).1 = .ok result ∧
      ∀ cls ∈ enabledClasses {}, ∃ c ∈ result.password.toList, c ∈ cls.chars {} := by
  refine (generate_covers_iff roundDraws (fun _ => 6) 0 (by decide)).2 fun i cls hi => ?_
  have hi' : i < 4 := (List.getElem?_eq_some_iff.1 hi).1
  have hall : ∀ i < 4, ∀ j < (enabledClasses {}).length, i < j →
      position roundDraws {} 0 j ≠ position roundDraws {} 0 i := by decide +kernel
  exact .inl (hall i hi')

/-- With these draws the password has no lowercase letter and no digit. -/
theorem not_generate_covers : ¬∀ (r : Randomness) (log2 : ℕ → ℚ) (t : ℕ) (config : PasswordConfig),
    validateConfig config = none → ∃ result, (generate r log2 config t).1 = .ok result ∧
      ∀ cls ∈ enabledClasses config, ∃ c ∈ result.password.toList, c ∈ cls.chars config := by
  intro hall
  obtain ⟨result, hresult, hcovers⟩ := hall firstDraws (fun _ => 6) 0 {} (by decide)
  have hpassword : (generate firstDraws (fun _ => 6) {} 0).1 =
      .ok ⟨"!AAAAAAAAAAAAAAA", 16, 96, "very_strong"⟩ := by decide +kernel
  rw [hpassword, Except.ok.injEq] at hresult
  subst hresult
  obtain ⟨c, hc, hlower⟩ := hcovers .lowercase (by decide)
  have hnone : ("!AAAAAAAAAAAAAAA".toList.all
      fun c => !(CharClass.chars {} .lowercase).contains c) = true := by decide +kernel
  have hnot := List.all_eq_true.1 hnone c hc
  simp [hlower] at hnot

end Password

end IpServer
