import IpServer.Password.Narrowing

/-!
# What passwords are made of

A password is filled from the pool of the enabled classes, and then written to at positions
and with characters that are drawn: all these are indices into strings, which the source does
not check.

* `generateAt_eq`: no index is out of range. Were it checked, nothing would change.
* `generate_proper`: an accepted configuration gives a password as long as asked for, of the
  characters that it admits.
* `generate_spec`: the same of a batch; and a configuration that is rejected is rejected before
  anything is drawn.
-/

namespace IpServer.Password

/-! ## Indices -/

section Checked

variable (r : Randomness) (log2 : ℕ → ℚ)

/-- `fill`, with every index checked. -/
def fillAt (pool : List Char) (t n : ℕ) : Option (List Char) :=
  (List.range n).mapM fun i => pool[(r.uniform (t + i) (pool.length - 1) : ℕ)]?

/-- `require`, with every index checked. -/
def requireAt (n : ℕ) (s : ℕ × List Char) (charSet : List Char) : Option (ℕ × List Char) :=
  if charSet.isEmpty then some s
  else do
    let pos := r.uniform s.1 (n - 1)
    let c ← charSet[(r.uniform (s.1 + 1) (charSet.length - 1) : ℕ)]?
    if pos < s.2.length then return (s.1 + 2, s.2.set pos c) else none

/-- `generate`, with every index checked. (A shuffle takes its indices from the length of what it
    shuffles.) -/
def generateAt (config : PasswordConfig) (t : ℕ) : Option (Except Exn PasswordResult × ℕ) :=
  match validateConfig config with
  | some errorMessage => some (.error (.invalidArgument errorMessage), t)
  | none =>
    let sets := buildCharacterSets config
    if sets.pool.isEmpty then some (.error (.invalidArgument "Character pool is empty"), t)
    else do
      let n := config.length.toNat
      let password ← fillAt r sets.pool t n
      let (t, password) ← sets.requiredChars.foldlM (requireAt r n) (t + n, password)
      let password := shuffled r t password
      let entropy := calculateEntropy log2 password sets.pool.length
      return (.ok ⟨String.ofList password, password.length, entropy, getStrengthRating entropy⟩,
        t + 1)

variable {r log2} {config : PasswordConfig} {t : ℕ}

/-- An index that is drawn from the length of a text is one of the text. -/
theorem getElem?_drawn {s : List Char} (hne : s ≠ []) (t : ℕ) :
    s[(r.uniform t (s.length - 1) : ℕ)]? = some (charAt s (r.uniform t (s.length - 1))) := by
  have hpos := List.length_pos_iff.2 hne
  have hlt : (r.uniform t (s.length - 1) : ℕ) < s.length := by
    have := (r.uniform t (s.length - 1)).isLt
    omega
  rw [charAt, List.getD_eq_getElem _ _ hlt, List.getElem?_eq_getElem hlt]

theorem fillAt_eq {pool : List Char} (hne : pool ≠ []) (t n : ℕ) :
    fillAt r pool t n = some (fill r pool t n) := by
  rw [fillAt, fill]
  induction List.range n with
  | nil => rfl
  | cons i is ih =>
    rw [List.mapM_cons, getElem?_drawn hne, ih]
    rfl

/-- A round of the loop over the classes writes within the password, and keeps its length. -/
theorem requireAt_eq {n : ℕ} (hn : 0 < n) (charSet : List Char) {s : ℕ × List Char}
    (hlength : s.2.length = n) :
    requireAt r n s charSet = some (require r n s charSet) ∧
      (require r n s charSet).2.length = n := by
  rw [requireAt, require]
  split
  · exact ⟨rfl, hlength⟩
  · next hempty =>
    have hne : charSet ≠ [] := fun hnil => hempty (hnil ▸ rfl)
    have hpos : (r.uniform s.1 (n - 1) : ℕ) < s.2.length := by
      have := (r.uniform s.1 (n - 1)).isLt
      omega
    refine ⟨?_, (List.length_set ..).trans hlength⟩
    simp only [getElem?_drawn hne, Option.bind_eq_bind, Option.bind_some]
    exact if_pos hpos

theorem foldlM_requireAt {n : ℕ} (hn : 0 < n) (charSets : List (List Char)) {s : ℕ × List Char}
    (hlength : s.2.length = n) :
    charSets.foldlM (requireAt r n) s = some (charSets.foldl (require r n) s) := by
  induction charSets generalizing s with
  | nil => rfl
  | cons charSet charSets ih =>
    obtain ⟨hround, hlength'⟩ := @requireAt_eq r n hn charSet s hlength
    rw [List.foldlM_cons, hround, List.foldl_cons]
    exact ih hlength'

/-- No index is out of range. -/
theorem generateAt_eq (r : Randomness) (log2 : ℕ → ℚ) (config : PasswordConfig) (t : ℕ) :
    generateAt r log2 config t = some (generate r log2 config t) := by
  rw [generateAt, generate]
  cases h : validateConfig config with
  | some errorMessage => rfl
  | none =>
    have hn : 0 < config.length.toNat := by
      have := length_ge h
      omega
    have hpool : (buildCharacterSets config).pool.isEmpty = false := by
      simpa using pool_ne_nil h
    have hlength : (fill r (buildCharacterSets config).pool t config.length.toNat).length =
        config.length.toNat := by simp [fill]
    have hloop := @foldlM_requireAt r _ hn (buildCharacterSets config).requiredChars
      (t + config.length.toNat, fill r (buildCharacterSets config).pool t config.length.toNat)
      hlength
    simp only [hpool, Bool.false_eq_true, if_false, fillAt_eq (pool_ne_nil h), hloop,
      Option.bind_eq_bind, Option.bind_some]
    rfl

end Checked

/-! ## Characters -/

/-- The characters that look like others. -/
def similar : List Char := ['I', 'O', 'i', 'l', 'o', '0', '1']

/-- A password as it was asked for: as long, and of characters of the enabled classes, without
    those that look like others if these are to be excluded. -/
structure Proper (config : PasswordConfig) (result : PasswordResult) : Prop where
  length_eq : (result.password.length : ℤ) = config.length
  mem_class : ∀ c ∈ result.password.toList, ∃ cls ∈ enabledClasses config, c ∈ cls.alphabet.1.toList
  notMem_similar : config.excludeSimilar = true → ∀ c ∈ result.password.toList, c ∉ similar

variable {config : PasswordConfig}

/-- What a configuration without characters that look like others admits. -/
theorem CharClass.notMem_similar {cls : CharClass} {c : Char} (hc : c ∈ cls.chars config)
    (h : config.excludeSimilar = true) : c ∉ similar := by
  have hall : (cls.alphabet.1.toList.all fun c =>
      cls.alphabet.2.toList.contains c || !similar.contains c) = true := by
    cases cls <;> decide +kernel
  obtain ⟨hmem, hkept⟩ := List.mem_filter.1 hc
  have hnot := List.all_eq_true.1 hall c hmem
  rw [h, Bool.true_and, Bool.not_eq_true'] at hkept
  rw [hkept, Bool.false_or, Bool.not_eq_true'] at hnot
  exact fun hmem => Bool.false_ne_true (hnot.symm.trans (List.contains_iff_mem.2 hmem))

/-- An accepted configuration gives a password as it was asked for. -/
theorem generate_proper (r : Randomness) (log2 : ℕ → ℚ) (h : validateConfig config = none)
    (t : ℕ) : ∃ result t', generate r log2 config t = (.ok result, t') ∧ Proper config result := by
  obtain ⟨result, t', hgen, -, hperm⟩ := generate_ok r log2 h t
  obtain ⟨result', t'', hgen', hlength, -⟩ := generate_text r log2 h t
  obtain ⟨rfl, -⟩ : result = result' ∧ t' = t'' := by
    simpa using hgen.symm.trans hgen'
  refine ⟨result, t', hgen, hlength, fun c hc => ?_, fun hexclude c hc => ?_⟩
  · obtain ⟨cls, hcls, hmem⟩ := exists_class_of_mem h (hperm.mem_iff.1 hc)
    exact ⟨cls, hcls, List.mem_of_mem_filter hmem⟩
  · obtain ⟨cls, -, hmem⟩ := exists_class_of_mem h (hperm.mem_iff.1 hc)
    exact CharClass.notMem_similar hmem hexclude

/-- An accepted configuration gives a password as it was asked for, with every index within the
    string that it is an index of, and a batch of as many as asked for; one that is rejected is
    rejected before anything is drawn. -/
theorem generate_spec (r : Randomness) (log2 : ℕ → ℚ) (config : PasswordConfig) (t : ℕ) :
    generateAt r log2 config t = some (generate r log2 config t) ∧
    (validateConfig config = none →
      (∃ result t', generate r log2 config t = (.ok result, t') ∧ Proper config result) ∧
      ∀ count > 0, ∃ results t', generateBatch r log2 config count t = (.ok results, t') ∧
        (results.length : ℤ) = count ∧ ∀ result ∈ results, Proper config result) ∧
    (validateConfig config ≠ none →
      ∃ message, generate r log2 config t = (.error (.invalidArgument message), t)) := by
  refine ⟨generateAt_eq r log2 config t, fun h => ⟨generate_proper r log2 h t, ?_⟩, fun h => ?_⟩
  · intro count hcount
    obtain ⟨results, t', hloop, hlength, hresults⟩ :=
      generateLoop_ok (generate_proper r log2 h) count.toNat t
    refine ⟨results, t', ?_, by omega, hresults⟩
    rw [generateBatch, if_neg (by omega), hloop]
  · obtain ⟨message, hmessage⟩ := Option.ne_none_iff_exists'.1 h
    exact ⟨message, by rw [generate, hmessage]⟩

theorem generate_spec_digits :
    let config : PasswordConfig :=
      { length := 8, uppercase := false, lowercase := false, symbols := false }
    ∃ results t', generateBatch firstDraws (fun _ => 6) config 2 0 = (.ok results, t') ∧
      (results.length : ℤ) = 2 ∧ ∀ result ∈ results, Proper config result :=
  ((generate_spec firstDraws (fun _ => 6)
    { length := 8, uppercase := false, lowercase := false, symbols := false } 0).2.1
      (by decide)).2 2 (by decide)

end IpServer.Password
