import IpServer.Config.Saving

/-!
# Saving is not all or nothing

`save_to_file` opens the file, which empties it, before it serialises the configuration, and
does not look at the stream after writing. So a configuration with a text that is not UTF-8
costs the file its content, and a configuration of which the end has not arrived counts as
saved. `allOrNothing_iff` says when neither happens.

* `AllOrNothing`: a failure leaves the content as it was, and a success a file that is loaded.
* `JsonLibrary.Reads`: a value is read back from its text, but not from a part of it.
* `Unharmed`: when saving is all or nothing, said of the configuration and the file before.
-/

namespace IpServer

namespace JsonLibrary

/-- The text of a value is read, with or without the end of the line, and not if it ends too
    early. -/
structure Reads (lib : JsonLibrary) (j : Json) : Prop where
  whole : ∀ text, lib.dumpIndented 0 j = .ok text → ∀ s ∈ [text, text ++ "\n"],
    lib.parse s = .ok j.reparsed ∧ lib.extract s = .ok j.reparsed
  part : ∀ text, lib.dumpIndented 0 j = .ok text → ∀ n < text.length,
    ∃ e, lib.extract (String.ofList (text.toList.take n)) = .error e

end JsonLibrary

namespace ConfigParser

variable (lib : JsonLibrary) (config : ServerConfig) (file : ConfigFile)

/-- A file holds a JSON text, and nothing else, that is loaded where it can be read. -/
def Loadable (file : ConfigFile) : Prop :=
  ∃ text j, file.content = some text ∧ lib.parse text = .ok j ∧
    ∀ env path, (env.file path).read? = some text →
      ∃ config, loadFromFile lib env path = .ok config

/-- If saving fails, the content is what it was; if not, the file is loaded. -/
def AllOrNothing : Prop :=
  ((saveToFile lib config file).1 = false →
    (saveToFile lib config file).2.content = file.content) ∧
  ((saveToFile lib config file).1 = true → Loadable lib (saveToFile lib config file).2)

/-- A file that opens for writing has nothing to lose to a text that is not UTF-8, and takes the
    text of the configuration, if perhaps not the end of the line. -/
def Unharmed : Prop :=
  file.opensForWriting = true →
    ((∃ f : TextField, Json.validUtf8 (f.value config) = false) → file.content = some "") ∧
    ∀ text, lib.dumpIndented 0 (toJson config) = .ok text →
      ∀ n, file.accepts = some n → text.length ≤ n

variable {lib config file}

/-! ## What is left in the file -/

/-- All of the text arrives, or a part of it. -/
theorem arrived_cases (text : String) (accepts : Option ℕ) :
    ((∀ n, accepts = some n → text.length ≤ n) ∧
      arrived text accepts ∈ [text, text ++ "\n"]) ∨
    ∃ n, accepts = some n ∧ n < text.length ∧
      arrived text accepts = String.ofList (text.toList.take n) := by
  rcases accepts with _ | n
  · refine .inl ⟨fun n hn => ?_, ?_⟩
    · cases hn
    · simp [arrived]
  · have hlength : text.toList.length = text.length := String.length_toList
    rw [arrived, String.toList_append]
    rcases lt_or_ge n text.length with hlt | hge
    · refine .inr ⟨n, rfl, hlt, ?_⟩
      rw [List.take_append_of_le_length (by omega)]
    · refine .inl ⟨fun m hm => Option.some.inj hm ▸ hge, ?_⟩
      rw [List.take_append, List.take_of_length_le (by omega)]
      -- the end of the line is one character, which arrives or not
      rcases Nat.eq_zero_or_pos (n - text.toList.length) with hzero | hpos
      · simp [hzero]
      · have hend : "\n".toList.length ≤ n - text.toList.length := hpos
        rw [List.take_of_length_le hend, ← String.toList_append, String.ofList_toList]
        simp

/-! ## When it is loaded -/

theorem loadable_of_whole (hlib : lib.Reads (toJson config))
    (hconfig : ∀ f : NumberField, f.holds (f.value config)) {text s : String}
    (hdump : lib.dumpIndented 0 (toJson config) = .ok text) (hs : s ∈ [text, text ++ "\n"])
    (hcontent : file.content = some s) : Loadable lib file := by
  obtain ⟨hparse, hextract⟩ := hlib.whole text hdump s hs
  obtain ⟨loaded, hloaded, -⟩ :=
    fromJson_of_accepted (accepted_reparsed (accepted_toJson hconfig)) {}
  refine ⟨s, _, hcontent, hparse, fun env path hread => ⟨loaded, ?_⟩⟩
  rw [loadFromFile, hread]
  dsimp only
  rw [hextract]
  exact hloaded

theorem not_loadable_of_part (hlib : lib.Reads (toJson config)) {text : String}
    (hdump : lib.dumpIndented 0 (toJson config) = .ok text) {n : ℕ} (hn : n < text.length)
    (hcontent : file.content = some (String.ofList (text.toList.take n))) :
    ¬Loadable lib file := by
  rintro ⟨read, -, hread, -, hload⟩
  obtain rfl := Option.some.inj (hread.symm.trans hcontent)
  obtain ⟨e, he⟩ := hlib.part text hdump n hn
  obtain ⟨config', hconfig'⟩ := hload
    (finding ⟨some (String.ofList (text.toList.take n)), true, true, none⟩) "" rfl
  rw [loadFromFile, finding, read?_of_readable rfl] at hconfig'
  dsimp only at hconfig'
  rw [he] at hconfig'
  cases hconfig'

/-- Saving is all or nothing exactly if a file that opens has nothing to lose to a text that is not
    UTF-8, and takes the text of the configuration. -/
theorem allOrNothing_iff (hlib : lib.Reads (toJson config))
    (hconfig : ∀ f : NumberField, f.holds (f.value config)) :
    AllOrNothing lib config file ↔ Unharmed lib config file := by
  rw [AllOrNothing, Unharmed]
  rcases hopens : file.opensForWriting with _ | _
  · -- the file is not touched
    rw [saveToFile_of_closed hopens]
    exact iff_of_true ⟨fun _ => rfl, fun h => by cases h⟩ fun h => by cases h
  · refine Iff.trans ?_ (forall_prop_of_true rfl).symm
    by_cases hutf8 : ∃ f : TextField, Json.validUtf8 (f.value config) = false
    · -- the file is empty already when the exception is thrown
      obtain ⟨e, hdump⟩ := @dumpIndented_toJson_eq_error lib config hutf8
      rw [saveToFile_of_error hopens hdump, hdump]
      constructor
      · exact fun h => ⟨fun _ => (h.1 rfl).symm, fun text htext => by cases htext⟩
      · exact fun h => ⟨fun _ => (h.1 hutf8).symm, fun h => by cases h⟩
    · obtain ⟨text, hdump⟩ := (@dumpIndented_toJson_eq_ok lib config).2 fun f =>
        Bool.not_eq_false _ ▸ fun hf => hutf8 ⟨f, hf⟩
      rw [saveToFile_of_ok hopens hdump]
      rcases arrived_cases text file.accepts with ⟨hwhole, hmem⟩ | ⟨n, hn, hlt, harrived⟩
      · -- all of the text has arrived, so the file is loaded
        refine iff_of_true ⟨fun h => ?_, fun _ => ?_⟩ ⟨fun h => absurd h hutf8, ?_⟩
        · cases h
        · exact loadable_of_whole hlib hconfig hdump hmem rfl
        · intro text' htext' n hn
          obtain rfl : text = text' := Except.ok.inj (hdump.symm.trans htext')
          exact hwhole n hn
      · -- the end of the text is missing, which nobody notices
        refine iff_of_false (fun h => ?_) fun h => ?_
        · exact not_loadable_of_part hlib hdump hlt (congrArg some harrived) (h.2 rfl)
        · exact absurd (h.2 text hdump n hn) (not_le_of_gt hlt)

/-! ### Examples -/

theorem reads_readingBack (j : Json) : (readingBack j).Reads j := by
  constructor
  · intro text hdump s hs
    rw [readingBack, JsonLibrary.dumpIndented_withParser] at hdump
    simp only [readingBack, JsonLibrary.withParser, hdump, if_pos hs, and_self]
  · intro text hdump n hn
    rw [readingBack, JsonLibrary.dumpIndented_withParser] at hdump
    refine ⟨"parse error", ?_⟩
    simp only [readingBack, JsonLibrary.withParser, hdump]
    refine if_neg fun hmem => ?_
    -- a part is shorter than the text
    have hlength : (String.ofList (text.toList.take n)).length < text.length := by
      rw [String.length_ofList, List.length_take, String.length_toList]
      omega
    rcases List.mem_pair.1 hmem with heq | heq
    · rw [heq] at hlength
      exact lt_irrefl _ hlength
    · rw [heq, String.length_append] at hlength
      omega

/-- A file with a configuration that takes everything. -/
def writableFile : ConfigFile := ⟨some "\x7b\x7d", true, true, none⟩

theorem allOrNothing_default : AllOrNothing (readingBack (toJson {})) {} writableFile := by
  have hconfig : ∀ f : NumberField, f.holds (f.value {}) := fun f => by
    cases f <;> simp [NumberField.holds, NumberField.value]
  refine (allOrNothing_iff (reads_readingBack _) hconfig).2 fun _ => ⟨?_, ?_⟩
  · rintro ⟨f, hf⟩
    have hutf8 : Json.validUtf8 (f.value {}) = true := by
      cases f <;> exact Json.validUtf8_of_ascii (by decide +kernel)
    rw [hutf8] at hf
    cases hf
  · intro text _ n hn
    cases hn

/-- A configuration of which a path is not UTF-8 costs the file its content. -/
theorem not_allOrNothing_path :
    ¬AllOrNothing JsonLibrary.sample { cityDbPath := "/data/\xff.mmdb" } writableFile := by
  intro h
  obtain ⟨e, hdump⟩ := @dumpIndented_toJson_eq_error JsonLibrary.sample
    { cityDbPath := "/data/\xff.mmdb" } ⟨.cityDb, by decide +kernel⟩
  rw [AllOrNothing, saveToFile_of_error rfl hdump] at h
  exact absurd (h.1 rfl) (by decide +kernel)

end ConfigParser

end IpServer
