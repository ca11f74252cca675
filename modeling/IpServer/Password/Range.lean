import IpServer.Password.Coverage

/-!
# Which passwords the draws can give

A generated password has the length that is asked for and characters of the enabled classes only;
and it has one of the last enabled class, which no later class overwrites. Some outcomes of the
draws give every such password (`InRange`): those that fill it in, have every class write to one
position, and leave the order alone (`drawsFor`).

A password depends on its own draws only (`generate_congr`). So the draws make the passwords of a
batch independent of each other: any passwords in range, as many as are asked for, are a batch for
some outcomes. The outcomes are chosen freely here, as `Randomness` leaves them: the engine that
the source draws from is seeded with 256 bits, and does not come to all of them.

* `inRange_of_generate`, `generate_drawsFor`: what can be generated, and what suffices for it.
* `generateBatch_range`: which batches the outcomes of the draws can give.
-/

namespace IpServer.Password

variable (r : Randomness) (log2 : ℕ → ℚ) (config : PasswordConfig)

/-- How many draws a password takes. -/
def drawsOf : ℕ := config.length.toNat + 2 * (enabledClasses config).length + 1

/-- A password with its rating. -/
def rated (password : List Char) : PasswordResult :=
  let entropy := calculateEntropy log2 password (buildCharacterSets config).pool.length
  ⟨String.ofList password, password.length, entropy, getStrengthRating entropy⟩

/-- What can be generated. -/
structure InRange (result : PasswordResult) : Prop where
  length_eq : (result.password.toList.length : ℤ) = config.length
  mem_pool : ∀ c ∈ result.password.toList, c ∈ (buildCharacterSets config).pool
  covers_last : ∀ cls, (enabledClasses config).getLast? = some cls →
    ∃ c ∈ result.password.toList, c ∈ cls.chars config
  rated_length : result.length = config.length
  rated_entropy : result.entropy =
    config.length * log2 (buildCharacterSets config).pool.length
  rated_strength : result.strength = getStrengthRating result.entropy

variable {r log2 config} {r' : Randomness} {t : ℕ}

/-! ### The draws of a password -/

/-- What an accepted configuration gives. -/
theorem generate_eq (r : Randomness) (log2 : ℕ → ℚ) (h : validateConfig config = none) (t : ℕ) :
    generate r log2 config t = (.ok (rated log2 config
      (shuffled r (t + config.length.toNat + 2 * (enabledClasses config).length)
        (overwrite (position r config t) (character r config t)
          (fill r (buildCharacterSets config).pool t config.length.toNat)
          (enabledClasses config).length))), t + drawsOf config) := by
  have hpool : (buildCharacterSets config).pool.isEmpty = false := by
    simpa using pool_ne_nil h
  simp only [generate, h, hpool, requireAll_eq, Bool.false_eq_true, if_false, drawsOf,
    ← Nat.add_assoc]
  rfl

/-- Two sequences of draws agree from `lo` up to `hi`. -/
def Agree (r r' : Randomness) (lo hi : ℕ) : Prop :=
  ∀ s, lo ≤ s → s < hi → r.uniform s = r'.uniform s ∧ r.shuffle s = r'.shuffle s

/-- A password depends on its own draws only. -/
theorem generate_congr (h : validateConfig config = none) (hr : Agree r r' t (t + drawsOf config)) :
    generate r log2 config t = generate r' log2 config t := by
  have hdraws : drawsOf config =
    config.length.toNat + 2 * (enabledClasses config).length + 1 := rfl
  have hfill : fill r (buildCharacterSets config).pool t config.length.toNat =
      fill r' (buildCharacterSets config).pool t config.length.toNat := by
    refine List.map_congr_left fun i hi => ?_
    have hi := List.mem_range.1 hi
    rw [(hr (t + i) (by omega) (by omega)).1]
  have hwrites : ∀ k < (enabledClasses config).length,
      position r config t k = position r' config t k ∧
        character r config t k = character r' config t k := by
    intro k hk
    simp only [position, character]
    rw [(hr (t + config.length.toNat + 2 * k) (by omega) (by omega)).1,
      (hr (t + config.length.toNat + 2 * k + 1) (by omega) (by omega)).1]
    exact ⟨rfl, rfl⟩
  have hshuffle : ∀ l, shuffled r (t + config.length.toNat +
      2 * (enabledClasses config).length) l = shuffled r' (t + config.length.toNat +
        2 * (enabledClasses config).length) l := by
    intro l
    rw [shuffled, shuffled, (hr _ (by omega) (by omega)).2]
  rw [generate_eq r log2 h, generate_eq r' log2 h, hfill, overwrite_congr _ hwrites, hshuffle]

/-- A batch depends on the draws from its first on. -/
theorem generateLoop_congr (h : validateConfig config = none) {count : ℕ}
    (hr : ∀ hi, Agree r r' t hi) :
    generateLoop r log2 config count t = generateLoop r' log2 config count t := by
  induction count generalizing t with
  | zero => rfl
  | succ count ih =>
    have hrest : ∀ hi, Agree r r' (t + drawsOf config) hi := fun hi s hs => hr hi s (by omega)
    rw [generateLoop, generateLoop, ← generate_congr h (hr _), generate_eq r log2 h]
    dsimp only
    rw [ih hrest]

/-! ### What is generated is in range -/

theorem mem_pool_iff {c : Char} : c ∈ (buildCharacterSets config).pool ↔
    ∃ cls ∈ enabledClasses config, c ∈ cls.chars config := by
  rw [buildCharacterSets_eq]
  exact List.mem_flatMap

/-- The rating of a password of the right length. -/
theorem calculateEntropy_eq (h : validateConfig config = none) {password : List Char}
    (hlen : (password.length : ℤ) = config.length) :
    calculateEntropy log2 password (buildCharacterSets config).pool.length =
      config.length * log2 (buildCharacterSets config).pool.length := by
  have hpassword : password.isEmpty = false := by
    have hge := length_ge h
    simpa using List.length_pos_iff.1 (show 0 < password.length by omega)
  have hpool := List.length_pos_iff.2 (pool_ne_nil h)
  rw [calculateEntropy, hpassword, if_neg (by simpa using hpool.ne'), ← hlen]
  push_cast
  rfl

/-- No class comes after the last one to overwrite it. -/
theorem spared_last (r : Randomness) (t : ℕ) :
    ∀ i, i + 1 = (enabledClasses config).length → ∀ cls, Spared r config t i cls := by
  intro i hi cls
  exact .inl fun j hj hlt => by omega

theorem inRange_of_generate {result : PasswordResult} {t' : ℕ}
    (hresult : generate r log2 config t = (.ok result, t')) :
    validateConfig config = none ∧ InRange log2 config result := by
  cases h : validateConfig config with
  | some message =>
    rw [generate, h] at hresult
    cases hresult
  | none =>
    refine ⟨rfl, ?_⟩
    have hlast := @spared_last config r t
    have hspared {i : ℕ} {cls : CharClass} :=
      @exists_mem_iff_spared r log2 config t h result t' hresult i cls
    rw [generate_eq r log2 h, Prod.mk.injEq, Except.ok.injEq] at hresult
    obtain ⟨rfl, -⟩ := hresult
    set written := overwrite (position r config t) (character r config t)
      (fill r (buildCharacterSets config).pool t config.length.toNat) (enabledClasses config).length
    set password :=
      shuffled r (t + config.length.toNat + 2 * (enabledClasses config).length) written
    have hperm : password.Perm written := shuffled_perm _ _
    have htext : (rated log2 config password).password.toList = password := String.toList_ofList
    have hlen : (password.length : ℤ) = config.length := by
      have hge := length_ge h
      rw [hperm.length_eq, length_overwrite, fill, List.length_map, List.length_range]
      omega
    exact {
      length_eq := by rw [htext, hlen]
      mem_pool := fun c hc => mem_pool_iff.2
        (exists_class_of_mem h (hperm.subset (htext ▸ hc)))
      covers_last := fun cls hcls => by
        have hne := enabledClasses_ne_nil h
        have hindex : (enabledClasses config)[(enabledClasses config).length - 1]? = some cls := by
          rw [← List.getLast?_eq_getElem?]
          exact hcls
        have hpos := List.length_pos_iff.2 hne
        exact (hspared hindex).2 (hlast _ (by omega) cls)
      rated_length := hlen
      rated_entropy := calculateEntropy_eq h hlen
      rated_strength := rfl }

/-! ### What is in range can be generated -/

/-- Draws that fill in a password after `t` draws, let every class write to the position `p` of
    it, and leave the order alone. -/
def drawsFor (config : PasswordConfig) (password : List Char) (p t : ℕ) : Randomness where
  uniform s b := @Fin.ofNat (b + 1) Nat.instNeZeroSucc <|
    if s < t + config.length.toNat then
      (buildCharacterSets config).pool.idxOf (charAt password (s - t))
    else if (s - (t + config.length.toNat)) % 2 = 0 then p
    else ((buildCharacterSets config).requiredChars.getLastD []).idxOf (charAt password p)
  shuffle _ _ := Equiv.refl _

/-- The index of a character is drawn if it can be. -/
theorem charAt_ofNat_idxOf {s : List Char} {c : Char} (hc : c ∈ s) :
    charAt s (Fin.ofNat (s.length - 1 + 1) (s.idxOf c)) = c := by
  have hlt := List.idxOf_lt_length_of_mem hc
  rw [charAt, Fin.val_ofNat, show s.length - 1 + 1 = s.length by omega, Nat.mod_eq_of_lt hlt,
    List.getD_eq_getElem _ _ hlt, List.getElem_idxOf]

/-- A password of the right length, of characters of the pool, and with one of the last class can
    be generated. -/
theorem generate_drawsFor (h : validateConfig config = none) {password : List Char} {p : ℕ}
    {cls : CharClass} (hlen : (password.length : ℤ) = config.length)
    (hpool : ∀ c ∈ password, c ∈ (buildCharacterSets config).pool) (hp : p < password.length)
    (hcls : (enabledClasses config).getLast? = some cls)
    (hmem : charAt password p ∈ cls.chars config) (t : ℕ) :
    generate (drawsFor config password p t) log2 config t =
      (.ok (rated log2 config password), t + drawsOf config) := by
  have hn : config.length.toNat = password.length := by omega
  obtain ⟨m, hm⟩ := Nat.exists_eq_succ_of_ne_zero
    (List.length_pos_iff.2 (enabledClasses_ne_nil h)).ne'
  have hlastset : (buildCharacterSets config).requiredChars.getLastD [] = cls.chars config := by
    rw [buildCharacterSets_eq]
    dsimp only
    rw [List.getLastD_eq_getLast?, List.getLast?_map, hcls]
    rfl
  have hset : (buildCharacterSets config).requiredChars.getD m [] = cls.chars config := by
    rw [List.getLast?_eq_getElem?, hm, Nat.succ_sub_one] at hcls
    rw [buildCharacterSets_eq]
    dsimp only
    rw [List.getD_eq_getElem?_getD, List.getElem?_map, hcls]
    rfl
  -- the pool gives the password
  have hfill : fill (drawsFor config password p t) (buildCharacterSets config).pool t
      config.length.toNat = password := by
    refine List.ext_getElem (by simp [fill, hn]) fun i hi hi' => ?_
    have hget : charAt password i = password[i] := List.getD_eq_getElem _ _ hi'
    simp only [fill, List.getElem_map, List.getElem_range, drawsFor]
    rw [if_pos (by omega), Nat.add_sub_cancel_left, hget]
    exact charAt_ofNat_idxOf (hpool _ (List.getElem_mem hi'))
  have hposition : ∀ k < m + 1, position (drawsFor config password p t) config t k = p := by
    intro k _
    simp only [position, drawsFor]
    rw [if_neg (by omega), if_pos (by omega), Fin.val_ofNat, Nat.mod_eq_of_lt (by omega)]
  -- the last class writes the character that is there
  have hcharacter : character (drawsFor config password p t) config t m = charAt password p := by
    simp only [character, drawsFor, hlastset]
    rw [hset, if_neg (by omega), if_neg (by omega)]
    exact charAt_ofNat_idxOf hmem
  have hwritten : overwrite (position (drawsFor config password p t) config t)
      (character (drawsFor config password p t) config t)
      (fill (drawsFor config password p t) (buildCharacterSets config).pool t
        config.length.toNat) (enabledClasses config).length = password := by
    rw [hm, overwrite_const hposition, hfill, hcharacter, charAt, List.getD_eq_getElem _ _ hp,
      List.set_getElem_self]
  have hshuffled (s : ℕ) : shuffled (drawsFor config password p t) s password = password :=
    List.ofFn_get password
  rw [generate_eq _ log2 h, hwritten, hshuffled]

/-- What is in range is rated as what is generated. -/
theorem InRange.rated_eq (h : validateConfig config = none) {result : PasswordResult}
    (hresult : InRange log2 config result) : rated log2 config result.password.toList = result := by
  have hentropy := @calculateEntropy_eq log2 config h _ hresult.length_eq
  rw [rated, hentropy, String.ofList_toList, ← hresult.rated_entropy, ← hresult.rated_strength,
    hresult.length_eq, ← hresult.rated_length]

/-- A password in range can be generated after any number of draws. -/
theorem InRange.exists_draws (h : validateConfig config = none) {result : PasswordResult}
    (hresult : InRange log2 config result) (t : ℕ) :
    ∃ r, generate r log2 config t = (.ok result, t + drawsOf config) := by
  obtain ⟨cls, hcls⟩ := Option.ne_none_iff_exists'.1 <|
    mt List.getLast?_eq_none_iff.1 (enabledClasses_ne_nil h)
  obtain ⟨c, hc, hmem⟩ := hresult.covers_last cls hcls
  obtain ⟨p, hp, rfl⟩ := List.mem_iff_getElem.1 hc
  have hget : charAt result.password.toList p = result.password.toList[p] :=
    List.getD_eq_getElem _ _ hp
  refine ⟨drawsFor config result.password.toList p t, ?_⟩
  rw [generate_drawsFor h hresult.length_eq hresult.mem_pool hp hcls (hget ▸ hmem),
    hresult.rated_eq h]

/-! ### Batches -/

/-- Draws that are `r` up to `hi`, and `r'` from there on. -/
def splice (r r' : Randomness) (hi : ℕ) : Randomness where
  uniform s := if s < hi then r.uniform s else r'.uniform s
  shuffle s := if s < hi then r.shuffle s else r'.shuffle s

theorem agree_splice_left (r r' : Randomness) (lo hi : ℕ) : Agree (splice r r' hi) r lo hi :=
  fun _ _ hs => ⟨if_pos hs, if_pos hs⟩

theorem agree_splice_right (r r' : Randomness) (lo hi : ℕ) : Agree (splice r r' lo) r' lo hi :=
  fun _ hs _ => ⟨if_neg (not_lt.2 hs), if_neg (not_lt.2 hs)⟩

/-- Any passwords in range can be generated one after the other. -/
theorem exists_draws_generateLoop (h : validateConfig config = none) {results : List PasswordResult}
    (hresults : ∀ result ∈ results, InRange log2 config result) (t : ℕ) :
    ∃ r t', generateLoop r log2 config results.length t = (.ok results, t') := by
  induction results generalizing t with
  | nil => exact ⟨firstDraws, t, rfl⟩
  | cons result results ih =>
    obtain ⟨hresult, hrest⟩ := List.forall_mem_cons.1 hresults
    obtain ⟨r, hr⟩ := hresult.exists_draws h t
    obtain ⟨r', t', hr'⟩ := ih hrest (t + drawsOf config)
    -- the first password is drawn from `r`, and the others from `r'`
    refine ⟨splice r r' (t + drawsOf config), t', ?_⟩
    rw [List.length_cons, generateLoop, generate_congr h (agree_splice_left r r' t _), hr]
    dsimp only
    rw [generateLoop_congr h (agree_splice_right r r' _), hr']

/-- What is generated in a loop is in range. -/
theorem inRange_of_generateLoop {count : ℕ} {results : List PasswordResult} {t' : ℕ}
    (h : generateLoop r log2 config count t = (.ok results, t')) :
    results.length = count ∧ ∀ result ∈ results, InRange log2 config result := by
  induction count generalizing t t' results with
  | zero =>
    rw [generateLoop, Prod.mk.injEq, Except.ok.injEq] at h
    obtain ⟨rfl, -⟩ := h
    exact ⟨rfl, List.forall_mem_nil _⟩
  | succ count ih =>
    rw [generateLoop] at h
    rcases hfirst : generate r log2 config t with ⟨e | result, t₁⟩
    · rw [hfirst] at h
      cases h
    · rw [hfirst] at h
      dsimp only at h
      rcases hloop : generateLoop r log2 config count t₁ with ⟨e | rest, t₂⟩
      · rw [hloop] at h
        cases h
      · rw [hloop] at h
        obtain ⟨hlen, hrest⟩ := ih hloop
        obtain rfl := Except.ok.inj (congrArg Prod.fst h)
        exact ⟨congrArg (· + 1) hlen,
          List.forall_mem_cons.2 ⟨(inRange_of_generate hfirst).2, hrest⟩⟩

/-- After any number of draws, there are outcomes of the next ones that give a batch exactly if it
    has as many passwords as are asked for, at least one, each of them in range. -/
theorem generateBatch_range (log2 : ℕ → ℚ) (config : PasswordConfig) (count : ℤ)
    (results : List PasswordResult) (t : ℕ) :
    (∃ r, (generateBatch r log2 config count t).1 = .ok results) ↔
      0 < count ∧ (results.length : ℤ) = count ∧ validateConfig config = none ∧
        ∀ result ∈ results, InRange log2 config result := by
  constructor
  · rintro ⟨r, hr⟩
    rw [generateBatch] at hr
    split at hr
    · cases hr
    · next hcount =>
      obtain ⟨hlen, hresults⟩ := @inRange_of_generateLoop r log2 config t _ _ _ (Prod.ext hr rfl)
      refine ⟨by omega, by omega, ?_, hresults⟩
      -- there is a first password
      obtain ⟨n, hn⟩ := Nat.exists_eq_succ_of_ne_zero (show count.toNat ≠ 0 by omega)
      rw [hn, generateLoop] at hr
      rcases hfirst : generate r log2 config t with ⟨e | result, t₁⟩
      · rw [hfirst] at hr
        cases hr
      · exact (inRange_of_generate hfirst).1
  · rintro ⟨hcount, hlen, h, hresults⟩
    obtain ⟨r, t', hr⟩ := exists_draws_generateLoop h hresults t
    refine ⟨r, ?_⟩
    rw [generateBatch, if_neg (by omega), show count.toNat = results.length by omega, hr]

/-- Passwords of eight digits. -/
def eightDigits : PasswordConfig :=
  { length := 8, uppercase := false, lowercase := false, symbols := false }

/-- Two of them. -/
def twoOfDigits : List PasswordResult :=
  [⟨"22222222", 8, 24, "very_weak"⟩, ⟨"98765432", 8, 24, "very_weak"⟩]

theorem generateBatch_range_twoOfDigits :
    ∃ r, (generateBatch r (fun _ => 3) eightDigits 2 5).1 = .ok twoOfDigits := by
  refine (generateBatch_range (fun _ => 3) eightDigits 2 twoOfDigits 5).2
    ⟨by decide, rfl, rfl, fun result hresult => ?_⟩
  have hclasses : enabledClasses eightDigits = [.digits] := by decide
  have hpool : (twoOfDigits.all fun result => result.password.toList.all
      (buildCharacterSets eightDigits).pool.contains) = true := by decide +kernel
  have hlast : (twoOfDigits.all fun result => result.password.toList.any
      (CharClass.chars eightDigits .digits).contains) = true := by decide +kernel
  have hrated : ∀ result ∈ twoOfDigits, (result.password.toList.length : ℤ) = 8 ∧
      result.length = 8 ∧ result.entropy = 8 * 3 ∧
      result.strength = getStrengthRating result.entropy := by decide +kernel
  obtain ⟨hchars, hlength, hentropy, hstrength⟩ := hrated result hresult
  refine ⟨hchars, fun c hc => ?_, fun cls hcls => ?_, hlength, hentropy, hstrength⟩
  · have hresultPool := List.all_eq_true.1 hpool result hresult
    exact List.contains_iff_mem.1 (List.all_eq_true.1 hresultPool c hc)
  · rw [hclasses] at hcls
    obtain rfl := Option.some_inj.1 hcls
    obtain ⟨c, hc, hdigit⟩ := List.any_eq_true.1 (List.all_eq_true.1 hlast result hresult)
    exact ⟨c, hc, List.contains_iff_mem.1 hdigit⟩

end IpServer.Password
