import IpServer.Service.Basic

/-!
# Concurrent lookups

Any number of calls of `lookup` on one service, in any order of their steps: a call reads
the cache, queries the databases, and writes the cache (`calls`). Each time the cache is
read or written under the lock of a shard, at a time that the clock then shows, which need
not go forward; and the databases may answer each call differently.

* `run_alone`: the steps of a call that is not interrupted are those of `lookup`.
* `cache_run`: the cache after a run has met the operations of the calls, one after the other.
* `computed_spec`, `done_spec`: what a call has computed, or returns, in any run.
* `lookups_transparent`: a call that hits returns what an earlier call computed for the same key
  and put last, not too long ago; any other call returns what it computed itself.
-/

namespace IpServer.Service

/-- Where a call of `lookup` is. -/
inductive Stage
  | start
  /-- nothing was found in the cache -/
  | missed
  /-- the databases have answered, and the data are to be stored -/
  | computed (data : Json) (dataType : CacheDataType)
  | done (result : Except Exn LookupResult)

/-- A step of a call. -/
inductive CallStep (δ : Type)
  | get (now : TimePoint)
  | query (answers : δ)
  | put (now : TimePoint)

/-- Any number of calls, and their cache. -/
structure Calls (n : ℕ) (ι : Type*) where
  cache : IPCache n
  stage : ι → Stage

/-- Where a call is once it has read the cache. -/
def Stage.ofRead : CacheAnswer → Stage
  | .got (some cached) => .done (.ok ⟨cached, true⟩)
  | _ => .missed

/-- Where a call is once its databases have answered. -/
def Stage.ofComputed : Json × Except Exn (Option CacheDataType) → Stage
  | (data, .error e) => .done (caught data e)
  | (data, .ok none) => .done (.ok ⟨data, false⟩)
  | (data, .ok (some dataType)) => .computed data dataType

section Defs

variable {δ : Type} {ι : Type*} {n : ℕ} (key : ι → String)

/-- No call has begun, and nothing is cached. -/
def Calls.new (n : ℕ) (ι : Type*) (maxMemoryBytes : ℕ) : Calls n ι :=
  ⟨IPCache.new n maxMemoryBytes, fun _ => .start⟩

/-- The operations on the cache in a step. -/
def ops (s : Calls n ι) (a : ι × CallStep δ) : List CacheOp :=
  match s.stage a.1, a.2 with
  | .start, .get now => [.get (key a.1) now]
  | .computed data dataType, .put now => [.put (key a.1) data dataType now]
  | _, _ => []

/-- The step puts data that can be serialised under `k`. -/
def Puts (k : String) (s : Calls n ι) : ι × CallStep δ → Prop
  | (i, .put _) => key i = k ∧
    ∃ data dataType, s.stage i = .computed data dataType ∧ data.isUtf8Text = true
  | (_, .get _) | (_, .query _) => False

variable {key} {s : Calls n ι} {lib : JsonLibrary}

theorem stores_put_iff {k k' : String} {data : Json} {dataType : CacheDataType} {now : TimePoint} :
    CacheShard.Stores lib k (.put k' data dataType now) ↔ k' = k ∧ data.isUtf8Text = true := by
  rw [CacheShard.Stores, ← @JsonLibrary.dump_eq_ok lib, Option.isSome_iff_exists]
  simp only [toOption_eq_some, CacheShard.estimateEntrySize, map_eq_ok]
  exact and_congr_right' ⟨fun ⟨_, text, h, _⟩ => ⟨text, h⟩, fun ⟨text, h⟩ => ⟨_, text, h, rfl⟩⟩

/-- A step that stores nothing under `k` puts nothing there. -/
theorem not_puts_of_ops {k : String} {a : ι × CallStep δ}
    (h : ∀ op ∈ ops key s a, ¬CacheShard.Stores lib k op) : ¬Puts key k s a := by
  obtain ⟨i, e⟩ := a
  cases e with
  | get | query => exact id
  | put now =>
    rintro ⟨hkey, data, dataType, hstage, hutf8⟩
    refine h (.put (key i) data dataType now) ?_ (stores_put_iff.2 ⟨hkey, hutf8⟩)
    rw [ops, hstage]
    exact List.mem_singleton_self _

/-- A `put` comes from a call that has computed what is put. -/
theorem eq_put_of_mem_ops {a : ι × CallStep δ} {k : String} {data : Json}
    {dataType : CacheDataType} {now : TimePoint} (h : .put k data dataType now ∈ ops key s a) :
    ∃ j, a = (j, .put now) ∧ key j = k ∧ s.stage j = .computed data dataType := by
  obtain ⟨j, e⟩ := a
  rw [ops] at h
  split at h
  · cases List.mem_singleton.1 h
  · next hstage he =>
    obtain ⟨rfl, rfl, rfl, rfl⟩ := CacheOp.put.inj (List.mem_singleton.1 h)
    exact ⟨j, congrArg _ he, rfl, hstage⟩
  · cases h

end Defs

/-! ## Steps -/

section Steps

variable {δ : Type} {ι : Type*} [DecidableEq ι] {n : ℕ} [NeZero n] (svc : Service δ)
  (hash : String → ℕ) (lib : JsonLibrary) (key : ι → String)

/-- The calls, on the keys `key`: a step is taken if its call has got there. -/
def calls : Machine (Calls n ι) (ι × CallStep δ) Unit := fun s a =>
  ((), match s.stage a.1, a.2 with
    | .start, .get now =>
      let read := IPCache.step hash lib s.cache (.get (key a.1) now)
      ⟨read.2, Function.update s.stage a.1 (.ofRead read.1)⟩
    | .missed, .query answers =>
      ⟨s.cache, Function.update s.stage a.1 (.ofComputed (svc.compute (key a.1) answers))⟩
    | .computed data dataType, .put now =>
      let put := IPCache.step hash lib s.cache (.put (key a.1) data dataType now)
      ⟨put.2, Function.update s.stage a.1 (.done (finish data put.1))⟩
    | _, _ => s)

variable {svc hash lib key} {s : Calls n ι} {i : ι} {e : CallStep δ}

/-- What a step does. -/
theorem step_cases (s : Calls n ι) (i : ι) (e : CallStep δ) :
    (∃ now, e = .get now ∧ s.stage i = .start ∧ ops key s (i, e) = [.get (key i) now] ∧
      (calls svc hash lib key s (i, e)).2 =
        ⟨(IPCache.step hash lib s.cache (.get (key i) now)).2, Function.update s.stage i
          (.ofRead (IPCache.step hash lib s.cache (.get (key i) now)).1)⟩) ∨
    (∃ answers, e = .query answers ∧ s.stage i = .missed ∧ ops key s (i, e) = [] ∧
      (calls svc hash lib key s (i, e)).2 =
        ⟨s.cache, Function.update s.stage i (.ofComputed (svc.compute (key i) answers))⟩) ∨
    (∃ data dataType now, e = .put now ∧ s.stage i = .computed data dataType ∧
      ops key s (i, e) = [.put (key i) data dataType now] ∧
      (calls svc hash lib key s (i, e)).2 =
        ⟨(IPCache.step hash lib s.cache (.put (key i) data dataType now)).2,
          Function.update s.stage i (.done
            (finish data (IPCache.step hash lib s.cache (.put (key i) data dataType now)).1))⟩) ∨
    (ops key s (i, e) = [] ∧ (calls svc hash lib key s (i, e)).2 = s) := by
  cases hstage : s.stage i with
  | start =>
    cases e with
    | get now =>
      exact .inl ⟨now, rfl, rfl, by simp only [ops, hstage], by simp only [calls, hstage]⟩
    | query | put =>
      exact .inr (.inr (.inr ⟨by simp only [ops, hstage], by simp only [calls, hstage]⟩))
  | missed =>
    cases e with
    | query answers =>
      exact .inr (.inl ⟨answers, rfl, rfl, by simp only [ops, hstage],
        by simp only [calls, hstage]⟩)
    | get | put =>
      exact .inr (.inr (.inr ⟨by simp only [ops, hstage], by simp only [calls, hstage]⟩))
  | computed data dataType =>
    cases e with
    | put now =>
      exact .inr (.inr (.inl ⟨data, dataType, now, rfl, rfl, by simp only [ops, hstage],
        by simp only [calls, hstage]⟩))
    | get | query =>
      exact .inr (.inr (.inr ⟨by simp only [ops, hstage], by simp only [calls, hstage]⟩))
  | done result =>
    exact .inr (.inr (.inr ⟨by simp only [ops, hstage], by simp only [calls, hstage]⟩))

/-- A call is after a step where it was, or where a step of its own takes it. -/
theorem stage_of_step {j : ι} {stage : Stage}
    (h : (calls svc hash lib key s (j, e)).2.stage i = stage) :
    s.stage i = stage ∨
    (∃ now, (j, e) = (i, .get now) ∧ s.stage i = .start ∧
      .ofRead (IPCache.step hash lib s.cache (.get (key i) now)).1 = stage) ∨
    (∃ answers, (j, e) = (i, .query answers) ∧ s.stage i = .missed ∧
      .ofComputed (svc.compute (key i) answers) = stage) ∨
    ∃ data dataType now, (j, e) = (i, .put now) ∧ s.stage i = .computed data dataType ∧
      .done (finish data (IPCache.step hash lib s.cache (.put (key i) data dataType now)).1) =
        stage := by
  -- a step changes the stage of its own call only
  have hupdate {stage' : Stage} (h : Function.update s.stage j stage' i = stage) :
      s.stage i = stage ∨ j = i ∧ stage' = stage := by
    by_cases hi : i = j
    · subst hi
      exact .inr ⟨rfl, (Function.update_self ..).symm.trans h⟩
    · exact .inl ((Function.update_of_ne hi ..).symm.trans h)
  obtain ⟨now, rfl, hstage, -, h'⟩ | ⟨answers, rfl, hstage, -, h'⟩ |
    ⟨data, dataType, now, rfl, hstage, -, h'⟩ | ⟨-, h'⟩ :=
      @step_cases δ ι _ n _ svc hash lib key s j e
  · rw [h'] at h
    rcases hupdate h with hsame | ⟨rfl, hread⟩
    · exact .inl hsame
    · exact .inr (.inl ⟨now, rfl, hstage, hread⟩)
  · rw [h'] at h
    rcases hupdate h with hsame | ⟨rfl, hcomputed⟩
    · exact .inl hsame
    · exact .inr (.inr (.inl ⟨answers, rfl, hstage, hcomputed⟩))
  · rw [h'] at h
    rcases hupdate h with hsame | ⟨rfl, hdone⟩
    · exact .inl hsame
    · exact .inr (.inr (.inr ⟨data, dataType, now, rfl, hstage, hdone⟩))
  · rw [h'] at h
    exact .inl h

/-- The steps of a call that is not interrupted are those of `lookup`. -/
theorem run_alone (hstart : s.stage i = .start) (looked stored : TimePoint) (answers : δ) :
    (calls svc hash lib key).run s [(i, .get looked), (i, .query answers), (i, .put stored)] =
      ⟨(svc.lookup hash lib s.cache (key i) looked stored answers).2, Function.update s.stage i
        (.done (svc.lookup hash lib s.cache (key i) looked stored answers).1)⟩ := by
  simp only [Machine.run_cons, Machine.run_nil, lookup]
  obtain hmiss | ⟨cached, hhit⟩ := get_cases hash lib s.cache (key i) looked
  · simp only [calls, hstart, hmiss, Stage.ofRead, Function.update_self, Function.update_idem]
    rcases svc.compute (key i) answers with ⟨data, x | _ | dataType⟩
    all_goals simp only [Stage.ofComputed]
  · simp only [calls, hstart, hhit, Stage.ofRead, Function.update_self]

theorem cache_step (a : ι × CallStep δ) : (calls svc hash lib key s a).2.cache =
    (IPCache.step hash lib).run s.cache (ops key s a) := by
  obtain ⟨_, -, -, hops, h⟩ | ⟨_, -, -, hops, h⟩ | ⟨_, _, _, -, -, hops, h⟩ | ⟨hops, h⟩ :=
    @step_cases δ ι _ n _ svc hash lib key s a.1 a.2
  · rw [h, hops]
    rfl
  · rw [h, hops]
    rfl
  · rw [h, hops]
    rfl
  · rw [h, hops]
    rfl

/-- The cache after a run has met the operations of the calls. -/
theorem cache_run (as : List (ι × CallStep δ)) : ((calls svc hash lib key).run s as).cache =
    (IPCache.step hash lib).run s.cache ((calls svc hash lib key).emitted (ops key) s as) := by
  induction as generalizing s with
  | nil => rfl
  | cons a as ih => rw [Machine.run_cons, ih, cache_step, Machine.emitted_cons, Machine.run_append]

end Steps

/-! ## What a call returns -/

/-- What a call returns that does not hit, whatever becomes of the cache. -/
def uncached (svc : Service δ) (lib : JsonLibrary) (k : String) (answers : δ) :
    Except Exn LookupResult :=
  let data := (svc.compute k answers).1
  match (svc.compute k answers).2 with
  | .error e => caught data e
  | .ok none => .ok ⟨data, false⟩
  | .ok (some _) =>
    match lib.dump data with
    | .error e => caught data e
    | .ok _ => .ok ⟨data, false⟩

section History

variable {δ : Type} {ι : Type*} {n : ℕ} (m : Machine (Calls n ι) (ι × CallStep δ) Unit)
  (start : Calls n ι)

/-- The databases gave `answers` to the call `i`, after it had missed. -/
def Queried (run : List (ι × CallStep δ)) (i : ι) (answers : δ) : Prop :=
  ∃ pre post, run = pre ++ (i, .query answers) :: post ∧ (m.run start pre).stage i = .missed

/-- What a call reads, for its key `k`, at `now`, after `before`, the step of `j` at `time`, and
    `between`, was computed by `j` for the same key, is the last that was put under it, has not
    outlived its type, and holds no error. -/
structure Reuses (svc : Service δ) (foundType : CacheDataType) (key : ι → String)
    (before : List (ι × CallStep δ)) (j : ι) (time : TimePoint) (between : List (ι × CallStep δ))
    (k : String) (now : TimePoint) (data : Json) : Prop where
  key_eq : key j = k
  computed : ∃ answers dataType, Queried m start before j answers ∧
    svc.compute k answers = (data, .ok (some dataType)) ∧
    (m.run start before).stage j = .computed data dataType ∧
    Storable foundType data dataType ∧ now - time ≤ CacheShard.ttlForType dataType
  last : m.Along (fun s a => ¬Puts key k s a) (m.run start (before ++ [(j, .put time)])) between

variable {m start} {run : List (ι × CallStep δ)} {i : ι} {answers : δ}

theorem Queried.append (h : Queried m start run i answers) (rest : List (ι × CallStep δ)) :
    Queried m start (run ++ rest) i answers := by
  obtain ⟨pre, post, rfl, hmissed⟩ := h
  exact ⟨pre, post ++ rest, by simp, hmissed⟩

end History

section Returns

variable {δ : Type} {ι : Type*} [DecidableEq ι] {n : ℕ} [NeZero n] {svc : Service δ}
  {hash : String → ℕ} {lib : JsonLibrary} {key : ι → String} {maxMemoryBytes : ℕ}
  {run : List (ι × CallStep δ)} {i : ι}

theorem ofRead_ne_computed (answer : CacheAnswer) (data : Json) (dataType : CacheDataType) :
    Stage.ofRead answer ≠ .computed data dataType := by
  cases answer with
  | got cached => cases cached <;> exact nofun
  | stored | threw => exact nofun

theorem eq_of_ofComputed {x : Json × Except Exn (Option CacheDataType)} {data : Json}
    {dataType : CacheDataType} (h : Stage.ofComputed x = .computed data dataType) :
    x = (data, .ok (some dataType)) := by
  obtain ⟨data', e | _ | dataType'⟩ := x
  · cases h
  · cases h
  · cases h
    rfl

/-- A call that is to store something has computed it from the answers it got. -/
theorem computed_spec {data : Json} {dataType : CacheDataType}
    (h : ((calls svc hash lib key).run (.new n ι maxMemoryBytes) run).stage i =
      .computed data dataType) :
    ∃ answers, Queried (calls svc hash lib key) (.new n ι maxMemoryBytes) run i answers ∧
      svc.compute (key i) answers = (data, .ok (some dataType)) := by
  induction run using List.reverseRecOn with
  | nil => cases h
  | append_singleton run a ih =>
    obtain ⟨j, e⟩ := a
    rw [Machine.run_concat] at h
    rcases stage_of_step h with h | ⟨now, -, -, h⟩ | ⟨answers, ha, hmissed, h⟩ | ⟨_, _, _, -, -, h⟩
    · obtain ⟨answers, hqueried, hcompute⟩ := ih h
      exact ⟨answers, hqueried.append [(j, e)], hcompute⟩
    · exact absurd h (ofRead_ne_computed _ _ _)
    · exact ⟨answers, ⟨run, [], by rw [ha], hmissed⟩, eq_of_ofComputed h⟩
    · cases h

/-- What is returned after a `put` depends on whether the data can be serialised. -/
theorem finish_put (cache : IPCache n) (k : String) (data : Json) (dataType : CacheDataType)
    (now : TimePoint) :
    finish data (IPCache.step hash lib cache (.put k data dataType now)).1 =
      match lib.dump data with
      | .error e => caught data e
      | .ok _ => .ok ⟨data, false⟩ := by
  cases hdump : lib.dump data with
  | error e => rw [put_of_error hdump, finish]
  | ok text =>
    obtain ⟨size, hput, -⟩ := @put_of_ok n _ hash lib cache k now data dataType text hdump
    rw [hput]
    rfl

theorem uncached_of_ofComputed {k : String} {answers : δ} {result : Except Exn LookupResult}
    (h : Stage.ofComputed (svc.compute k answers) = .done result) :
    result = uncached svc lib k answers := by
  rw [uncached]
  generalize svc.compute k answers = x at h
  obtain ⟨data, e | _ | dataType⟩ := x
  · exact (Stage.done.inj h).symm
  · exact (Stage.done.inj h).symm
  · cases h

theorem ofRead_eq_done {answer : CacheAnswer} {result : Except Exn LookupResult}
    (h : Stage.ofRead answer = .done result) :
    ∃ cached, answer = .got (some cached) ∧ result = .ok ⟨cached, true⟩ := by
  cases answer with
  | got cached =>
    cases cached with
    | none => cases h
    | some cached => exact ⟨cached, rfl, (Stage.done.inj h).symm⟩
  | stored | threw => cases h

/-- A call that has returned has computed its result from the answers it got, or read it. -/
theorem done_spec {result : Except Exn LookupResult}
    (h : ((calls svc hash lib key).run (.new n ι maxMemoryBytes) run).stage i = .done result) :
    (∃ answers, Queried (calls svc hash lib key) (.new n ι maxMemoryBytes) run i answers ∧
      result = uncached svc lib (key i) answers) ∨
    ∃ cached pre now rest, result = .ok ⟨cached, true⟩ ∧ run = pre ++ (i, .get now) :: rest ∧
      ((calls svc hash lib key).run (.new n ι maxMemoryBytes) pre).stage i = .start ∧
      (IPCache.step hash lib ((calls svc hash lib key).run (.new n ι maxMemoryBytes) pre).cache
        (.get (key i) now)).1 = .got (some cached) := by
  induction run using List.reverseRecOn with
  | nil => cases h
  | append_singleton run a ih =>
    obtain ⟨j, e⟩ := a
    rw [Machine.run_concat] at h
    rcases stage_of_step h with h | ⟨now, ha, hstart, h⟩ | ⟨answers, ha, hmissed, h⟩ |
      ⟨data, dataType, now, ha, hcomputed, h⟩
    · rcases ih h with ⟨answers, hqueried, hresult⟩ |
        ⟨cached, pre, now, rest, hresult, rfl, hstart, hread⟩
      · exact .inl ⟨answers, hqueried.append [(j, e)], hresult⟩
      · exact .inr ⟨cached, pre, now, rest ++ [(j, e)], hresult, by simp, hstart, hread⟩
    · obtain ⟨cached, hread, hresult⟩ := ofRead_eq_done h
      exact .inr ⟨cached, run, now, [], hresult, by rw [ha], hstart, hread⟩
    · exact .inl ⟨answers, ⟨run, [], by rw [ha], hmissed⟩, uncached_of_ofComputed h⟩
    · obtain ⟨answers, hqueried, hcompute⟩ := computed_spec hcomputed
      refine .inl ⟨answers, hqueried.append [(j, e)], ?_⟩
      rw [← Stage.done.inj h, finish_put, uncached, hcompute]

/-- What a call reads was put by an earlier one. -/
theorem exists_reuses {foundType : CacheDataType}
    (hstorable : ∀ {k answers data dataType}, svc.compute k answers = (data, .ok (some dataType)) →
      Storable foundType data dataType)
    {k : String} {now : TimePoint} {cached : Json}
    (h : (IPCache.step hash lib ((calls svc hash lib key).run (.new n ι maxMemoryBytes) run).cache
      (.get k now)).1 = .got (some cached)) :
    ∃ before j time between, run = before ++ (j, .put time) :: between ∧
      Reuses (calls svc hash lib key) (.new n ι maxMemoryBytes) svc foundType key before j time
        between k now cached := by
  obtain ⟨e, hstored, rfl, hlive⟩ := exists_stored_of_hit h
  rw [cache_run] at hstored
  -- the entry comes from the last `put` of the key, and this from a call
  obtain ⟨xs, ys, hops, hstores, hys⟩ := IPCache.exists_last_put maxMemoryBytes hstored
  obtain ⟨before, a, between, us, vs, rfl, ha, -, rfl⟩ := Machine.exists_of_emitted_eq _ hops
  have hput : .put k e.result e.dataType e.timestamp ∈
      ops key ((calls svc hash lib key).run (.new n ι maxMemoryBytes) before) a := by
    rw [ha]
    exact List.mem_append_right us List.mem_cons_self
  obtain ⟨j, rfl, rfl, hcomputed⟩ := eq_put_of_mem_ops hput
  obtain ⟨answers, hqueried, hcompute⟩ := computed_spec hcomputed
  have hlast := Machine.along_of_emitted fun op hop => hys op (List.mem_append_right vs hop)
  exact ⟨before, j, e.timestamp, between, rfl, rfl,
    ⟨answers, e.dataType, hqueried, hcompute, hcomputed, hstorable hcompute, hlive⟩,
    Machine.along_mono (I := fun _ => True) (fun _ _ _ _ => trivial)
      (fun _ _ _ hnone => not_puts_of_ops hnone) trivial hlast⟩

end Returns

/-! ## The two services -/

/-- The cache of a service is transparent. In any run of any calls, one that has returned without
    a hit returns what it computed from the answers that the databases gave to it, whatever the
    others did; and one that hit returns what an earlier call computed for the same key. -/
def Transparent {δ : Type} (svc : Service δ) (foundType : CacheDataType) (hash : String → ℕ)
    (lib : JsonLibrary) (n : ℕ) [NeZero n] (maxMemoryBytes : ℕ) {ι : Type*} [DecidableEq ι]
    (key : ι → String) : Prop :=
  let state := (calls svc hash lib key).run (.new n ι maxMemoryBytes)
  ∀ (run : List (ι × CallStep δ)) (i : ι) (result : Except Exn LookupResult),
    (state run).stage i = .done result →
    ((∀ data, result ≠ .ok ⟨data, true⟩) → ∃ answers,
      Queried (calls svc hash lib key) (.new n ι maxMemoryBytes) run i answers ∧
        result = uncached svc lib (key i) answers) ∧
    ∀ data, result = .ok ⟨data, true⟩ → ∃ before j time between now rest,
      run = (before ++ (j, .put time) :: between) ++ (i, .get now) :: rest ∧
        (state (before ++ (j, .put time) :: between)).stage i = .start ∧
        Reuses (calls svc hash lib key) (.new n ι maxMemoryBytes) svc foundType key before j time
          between (key i) now data

theorem caught_ne_hit (data : Json) (e : Exn) (data' : Json) :
    caught data e ≠ .ok ⟨data', true⟩ := by
  rw [caught]
  split
  · exact nofun
  · exact nofun

/-- What is computed is no hit. -/
theorem uncached_ne_hit {δ : Type} (svc : Service δ) (lib : JsonLibrary) (k : String) (answers : δ)
    (data : Json) : uncached svc lib k answers ≠ .ok ⟨data, true⟩ := by
  rw [uncached]
  obtain ⟨data', e | _ | dataType⟩ := svc.compute k answers
  · exact caught_ne_hit _ _ _
  · exact nofun
  · dsimp only
    cases lib.dump data' with
    | error e => exact caught_ne_hit _ _ _
    | ok text => exact nofun

/-- If what a service stores is storable, its cache is transparent. -/
theorem transparent_of_storable {δ : Type} {svc : Service δ} {foundType : CacheDataType}
    (hstorable : ∀ {k answers data dataType}, svc.compute k answers = (data, .ok (some dataType)) →
      Storable foundType data dataType)
    (hash : String → ℕ) (lib : JsonLibrary) (n : ℕ) [NeZero n] (maxMemoryBytes : ℕ) {ι : Type*}
    [DecidableEq ι] (key : ι → String) :
    Transparent svc foundType hash lib n maxMemoryBytes key := by
  intro run i result hdone
  rcases done_spec hdone with ⟨answers, hqueried, rfl⟩ |
    ⟨cached, pre, now, rest, rfl, rfl, hstart, hread⟩
  · exact ⟨fun _ => ⟨answers, hqueried, rfl⟩,
      fun data heq => absurd heq (uncached_ne_hit _ _ _ _ _)⟩
  · refine ⟨fun hno => absurd rfl (hno cached), fun data heq => ?_⟩
    obtain rfl : cached = data := congrArg LookupResult.data (Except.ok.inj heq)
    obtain ⟨before, j, time, between, rfl, hreuses⟩ := exists_reuses hstorable hread
    exact ⟨before, j, time, between, now, rest, rfl, hstart, hreuses⟩

end IpServer.Service

namespace IpServer

/-- The caches of both lookup services are transparent, whatever their size, the hash of their
    keys, the clock, and the order of the steps of any number of calls. -/
theorem lookups_transparent (hash : String → ℕ) (lib : JsonLibrary) (n : ℕ) [NeZero n]
    (maxMemoryBytes : ℕ) {ι : Type*} [DecidableEq ι] (key : ι → String) :
    Service.Transparent IPGeoService.service .ipGeolocation hash lib n maxMemoryBytes key ∧
      Service.Transparent MACLookupService.service .macOui hash lib n maxMemoryBytes key :=
  ⟨Service.transparent_of_storable IPGeoService.storable hash lib n maxMemoryBytes key,
    Service.transparent_of_storable MACLookupService.storable hash lib n maxMemoryBytes key⟩

/-- Both databases do not know an address. -/
def unknown : MmdbQuery × MmdbQuery := (.answered true .notFound, .answered true .notFound)

theorem compute_unknown (ipAddress : String) : IPGeoService.service.compute ipAddress unknown =
    (databaseFound ipAddress false, .ok (some .negative)) := by
  have hcity : CityDatabase.lookup unknown.1 ipAddress = .ok (databaseFound ipAddress false) := rfl
  have hasn : ASNDatabase.lookup unknown.2 ipAddress = .ok (databaseFound ipAddress false) := rfl
  exact IPGeoService.compute_of_notFound hcity hasn rfl rfl rfl

/-- An address that is in no database, looked up twice. -/
def lookedUpTwice : List (Bool × Service.CallStep (MmdbQuery × MmdbQuery)) :=
  [(false, .get 0), (false, .query unknown), (false, .put 0)] ++ [(true, .get (seconds 300))]

theorem lookups_transparent_twice :
    let key := fun _ : Bool => "2001:db8::1"
    let calls := Service.calls IPGeoService.service (fun _ => 0) .sample key
    ∃ before j time between now rest,
      lookedUpTwice = (before ++ (j, .put time) :: between) ++ (true, .get now) :: rest ∧
        (calls.run (.new 8 Bool 1000) (before ++ (j, .put time) :: between)).stage true = .start ∧
        Service.Reuses calls (.new 8 Bool 1000) IPGeoService.service .ipGeolocation key before j
          time between "2001:db8::1" now (databaseFound "2001:db8::1" false) := by
  intro key calls
  have hdone : (calls.run (.new 8 Bool 1000) lookedUpTwice).stage true =
      .done (.ok ⟨databaseFound "2001:db8::1" false, true⟩) := by
    have hmiss : (IPCache.step (fun _ => 0) .sample (IPCache.new 8 1000)
        (.get "2001:db8::1" 0)).1 = .got none := IPCache.step_answer (fun _ => 0) .sample _ _
    have hutf8 := isUtf8Text_databaseFound
      (Json.validUtf8_of_ascii (by decide) : Json.validUtf8 "2001:db8::1" = true) false
    obtain ⟨size, hstored⟩ := @Service.stored_lookup _ 8 _ _ _ _ _ _ _ 0 _ _ _ hmiss
      (compute_unknown "2001:db8::1") hutf8
    have hhit := @Service.get_of_stored 8 _ (fun _ => 0) .sample _ "2001:db8::1" _ (seconds 300)
      hstored (sub_zero (seconds 300)).le
    have hfirst := @Service.run_alone _ Bool _ 8 _ IPGeoService.service (fun _ => 0) .sample key
      (.new 8 Bool 1000) false rfl 0 0 unknown
    rw [lookedUpTwice, Machine.run_append, hfirst, Machine.run_cons, Machine.run_nil]
    have hstart : ∀ stage, Function.update (Service.Calls.new 8 Bool 1000).stage false stage true =
        .start := fun _ => Function.update_of_ne (by decide) ..
    simp only [calls, Service.calls, hstart, Function.update_self]
    exact congrArg Service.Stage.ofRead hhit
  exact ((lookups_transparent (fun _ => 0) .sample 8 1000 key).1 lookedUpTwice true _ hdone).2 _ rfl

end IpServer
