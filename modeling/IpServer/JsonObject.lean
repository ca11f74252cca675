import IpServer.Json

/-!
# Objects

What assigning members makes of an object, member by member. The values that the
databases and the services build start from `null` and are assigned to, so that they
are objects whose members are sorted (`Object`).

* `Object.set`, `Object.update`: what holds of all members is kept by assignments of such
  members.
* `isUtf8Text_of_update`: updating with an object keeps all its members.
-/

namespace IpServer.Json

/-! ## Members -/

/-- The members are in the order of their keys, without duplicates. -/
def Sorted (ms : List (String × Json)) : Prop := ms.Pairwise fun m m' => m.1 < m'.1

/-- An object with sorted members that all meet `P`. -/
def Object (P : String × Json → Prop) (j : Json) : Prop :=
  ∃ ms, j = .object ms ∧ Sorted ms ∧ ∀ m ∈ ms, P m

variable {P Q : String × Json → Prop} {key : String} {value : Json} {ms : List (String × Json)}

@[simp] theorem set_object : (object ms).set key value = .object (assign key value ms) := rfl

@[simp] theorem get?_object : (object ms).get? key = find key ms := rfl

theorem mem_of_find (h : find key ms = some value) : (key, value) ∈ ms := by
  induction ms with
  | nil => cases h
  | cons m ms ih =>
    rw [find] at h
    split at h
    · next hkey => rw [← hkey, ← Option.some_inj.1 h]; exact List.mem_cons_self
    · exact List.mem_cons_of_mem m (ih h)

theorem exists_find_of_mem {m : String × Json} (h : m ∈ ms) :
    ∃ value, find m.1 ms = some value := by
  induction ms with
  | nil => cases h
  | cons m' ms ih =>
    rw [find]
    split
    · exact ⟨m'.2, rfl⟩
    · next hne =>
      rcases List.mem_cons.1 h with rfl | h
      · exact absurd rfl hne
      · exact ih h

theorem find_eq_none (h : ∀ m ∈ ms, m.1 ≠ key) : find key ms = none := by
  induction ms with
  | nil => rfl
  | cons m ms ih =>
    rw [find, if_neg (h m List.mem_cons_self)]
    exact ih fun m' hm' => h m' (List.mem_cons_of_mem m hm')

/-- An assignment is seen under its key, and nowhere else. -/
theorem find_assign (key key' : String) (value : Json) (ms : List (String × Json)) :
    find key' (assign key value ms) = if key = key' then some value else find key' ms := by
  induction ms with
  | nil => rfl
  | cons m ms ih =>
    obtain ⟨k, v⟩ := m
    rw [assign]
    split
    · next hk =>
      subst hk
      rw [find, find]
      split
      · rfl
      · rfl
    · next hk =>
      split
      · rfl
      · rw [find, find, ih]
        split
        · next hk' =>
          rw [if_neg fun h => hk (hk'.trans h.symm)]
        · rfl

theorem mem_assign {m : String × Json} (h : m ∈ assign key value ms) :
    m = (key, value) ∨ m ∈ ms := by
  induction ms with
  | nil => exact .inl (List.mem_singleton.1 h)
  | cons m' ms ih =>
    obtain ⟨k, v⟩ := m'
    rw [assign] at h
    split at h
    · exact (List.mem_cons.1 h).imp_right (List.mem_cons_of_mem _)
    · split at h
      · exact List.mem_cons.1 h
      · rcases List.mem_cons.1 h with rfl | h
        · exact .inr List.mem_cons_self
        · exact (ih h).imp_right (List.mem_cons_of_mem _)

theorem mem_assign_self (key : String) (value : Json) (ms : List (String × Json)) :
    (key, value) ∈ assign key value ms := by
  refine mem_of_find ?_
  rw [find_assign, if_pos rfl]

theorem mem_assign_of_ne {m : String × Json} (h : m ∈ ms) (hne : m.1 ≠ key) :
    m ∈ assign key value ms := by
  induction ms with
  | nil => cases h
  | cons m' ms ih =>
    obtain ⟨k, v⟩ := m'
    rw [assign]
    split
    · next hk =>
      rcases List.mem_cons.1 h with rfl | h
      · exact absurd hk hne
      · exact List.mem_cons_of_mem _ h
    · split
      · exact List.mem_cons_of_mem _ h
      · rcases List.mem_cons.1 h with rfl | h
        · exact List.mem_cons_self
        · exact List.mem_cons_of_mem _ (ih h)

theorem sorted_assign (h : Sorted ms) : Sorted (assign key value ms) := by
  induction ms with
  | nil => exact List.pairwise_singleton _ _
  | cons m ms ih =>
    obtain ⟨k, v⟩ := m
    obtain ⟨hfirst, hrest⟩ := List.pairwise_cons.1 h
    rw [assign]
    split
    · next hk =>
      subst hk
      exact List.pairwise_cons.2 ⟨hfirst, hrest⟩
    · next hk =>
      split
      · next hlt =>
        refine List.pairwise_cons.2 ⟨fun m hm => ?_, h⟩
        rcases List.mem_cons.1 hm with rfl | hm
        · exact hlt
        · exact hlt.trans (hfirst m hm)
      · next hle =>
        refine List.pairwise_cons.2 ⟨fun m hm => ?_, ih hrest⟩
        rcases mem_assign hm with rfl | hm
        · exact lt_of_le_of_ne (not_lt.1 hle) hk
        · exact hfirst m hm

/-! ## Objects -/

namespace Object

variable {j o : Json}

theorem mono (h : Object P j) (hPQ : ∀ m, P m → Q m) : Object Q j := by
  obtain ⟨ms, rfl, hsorted, hms⟩ := h
  exact ⟨ms, rfl, hsorted, fun m hm => hPQ m (hms m hm)⟩

theorem null_set (h : P (key, value)) : Object P (null.set key value) :=
  ⟨_, rfl, List.pairwise_singleton _ _, List.forall_mem_singleton.2 h⟩

theorem set (h : Object P j) (hvalue : P (key, value)) : Object P (j.set key value) := by
  obtain ⟨ms, rfl, hsorted, hms⟩ := h
  refine ⟨_, rfl, sorted_assign hsorted, fun m hm => ?_⟩
  rcases mem_assign hm with rfl | hm
  · exact hvalue
  · exact hms m hm

/-- Members may be assigned one after the other. -/
theorem update_members (h : Object P j) {os : List (String × Json)} (hos : ∀ m ∈ os, P m) :
    Object P (j.update (.object os)) := by
  rw [Json.update]
  induction os generalizing j with
  | nil => exact h
  | cons m os ih =>
    exact ih (h.set (hos m List.mem_cons_self)) fun m' hm' => hos m' (List.mem_cons_of_mem m hm')

theorem update (h : Object P j) (ho : Object P o) : Object P (j.update o) := by
  obtain ⟨os, rfl, -, hos⟩ := ho
  exact h.update_members hos

theorem get? (h : Object P j) (hget : j.get? key = some value) : P (key, value) := by
  obtain ⟨ms, rfl, -, hms⟩ := h
  exact hms _ (mem_of_find hget)

theorem get?_eq_none (h : Object (fun m => m.1 ≠ key) j) : j.get? key = none := by
  obtain ⟨ms, rfl, -, hms⟩ := h
  exact find_eq_none hms

theorem get?_set (h : Object P j) (key' : String) :
    (j.set key value).get? key' = if key = key' then some value else j.get? key' := by
  obtain ⟨ms, rfl, -, -⟩ := h
  exact find_assign key key' value ms

end Object

theorem contains_eq_false {j : Json} (h : Object (fun m => m.1 ≠ key) j) :
    j.contains key = false := by
  rw [contains, h.get?_eq_none, Option.isSome_none]

/-- A boolean that an object has is read. -/
theorem value_of_get? {j : Json} {b default : Bool} (h : j.get? key = some (.boolean b)) :
    j.value key default = .ok b := by
  cases j with
  | object ms =>
    rw [get?_object] at h
    rw [value]
    simp only [h]
  | null | boolean | integer | unsigned | float | string | array => cases h

/-! ## UTF-8 -/

theorem areUtf8Members_iff :
    areUtf8Members ms = true ↔ ∀ m ∈ ms, validUtf8 m.1 = true ∧ m.2.isUtf8Text = true := by
  induction ms with
  | nil => simp [areUtf8Members]
  | cons m ms ih => simp [areUtf8Members, ih, and_assoc]

/-- The strings of an object are UTF-8 if its keys and the strings in its values are. -/
theorem Object.isUtf8Text_iff {j : Json} (h : Object P j) : j.isUtf8Text = true ↔
    Object (fun m => validUtf8 m.1 = true ∧ m.2.isUtf8Text = true) j := by
  obtain ⟨ms, rfl, hsorted, -⟩ := h
  rw [isUtf8Text, areUtf8Members_iff]
  constructor
  · exact fun hms => ⟨ms, rfl, hsorted, hms⟩
  · rintro ⟨ms', heq, -, hms⟩
    exact Json.object.inj heq ▸ hms

/-- All members of an object are assigned, the last of a key being the only one. -/
theorem exists_update {os : List (String × Json)} (hos : Sorted os) (ms : List (String × Json)) :
    ∃ ms', (object ms).update (object os) = object ms' ∧
      (∀ m ∈ os, m ∈ ms') ∧ ∀ m ∈ ms, (∀ o ∈ os, m.1 ≠ o.1) → m ∈ ms' := by
  induction os generalizing ms with
  | nil => exact ⟨ms, rfl, List.forall_mem_nil _, fun m hm _ => hm⟩
  | cons o os ih =>
    obtain ⟨hfirst, hrest⟩ := List.pairwise_cons.1 hos
    obtain ⟨ms', heq, hall, hkept⟩ := ih hrest (assign o.1 o.2 ms)
    refine ⟨ms', heq, List.forall_mem_cons.2 ⟨?_, hall⟩, fun m hm hne => ?_⟩
    · exact hkept o (mem_assign_self _ _ _) fun o' ho' => (hfirst o' ho').ne
    · obtain ⟨hne, hnes⟩ := List.forall_mem_cons.1 hne
      exact hkept m (mem_assign_of_ne hm hne) hnes

/-- The keys of an object are those of what is updated with it. -/
theorem exists_get?_update {j o : Json} (hj : Object P j) (ho : Object Q o)
    (hget : o.get? key = some value) : ∃ value', (j.update o).get? key = some value' := by
  obtain ⟨ms, rfl, -, -⟩ := hj
  obtain ⟨os, rfl, hos, -⟩ := ho
  obtain ⟨ms', heq, hall, -⟩ := exists_update hos ms
  rw [heq, get?_object]
  exact exists_find_of_mem (hall _ (mem_of_find hget))

/-- What is updated with an object is UTF-8 only if that object is. -/
theorem isUtf8Text_of_update {j o : Json} (hj : Object P j) (ho : Object Q o)
    (h : (j.update o).isUtf8Text = true) : o.isUtf8Text = true := by
  obtain ⟨ms, rfl, -, -⟩ := hj
  obtain ⟨os, rfl, hos, -⟩ := ho
  obtain ⟨ms', heq, hall, -⟩ := exists_update hos ms
  rw [heq, isUtf8Text, areUtf8Members_iff] at h
  rw [isUtf8Text, areUtf8Members_iff]
  exact fun m hm => h m (hall m hm)

/-! ## Assigning many members -/

theorem update_cons (m : String × Json) (ms os : List (String × Json)) :
    (object ms).update (object (m :: os)) = (object (assign m.1 m.2 ms)).update (object os) := rfl

/-- A key that is not assigned keeps its value. -/
theorem get?_update_of_notMem {os : List (String × Json)} (h : key ∉ os.map Prod.fst)
    (ms : List (String × Json)) : ((object ms).update (object os)).get? key = find key ms := by
  induction os generalizing ms with
  | nil => rfl
  | cons o os ih =>
    rw [List.map_cons, List.mem_cons, not_or] at h
    rw [update_cons, ih h.2, find_assign, if_neg (Ne.symm h.1)]

/-- A key that is assigned once has the value assigned to it. -/
theorem get?_update_of_mem {os : List (String × Json)} (hos : (os.map Prod.fst).Nodup)
    (h : (key, value) ∈ os) (ms : List (String × Json)) :
    ((object ms).update (object os)).get? key = some value := by
  induction os generalizing ms with
  | nil => cases h
  | cons o os ih =>
    rw [List.map_cons, List.nodup_cons] at hos
    rw [update_cons]
    rcases List.mem_cons.1 h with rfl | h
    · rw [get?_update_of_notMem hos.1, find_assign, if_pos rfl]
    · exact ih hos.2 h _

/-- A member of an object that is updated with another one is the other one's, if it has it. -/
theorem Object.get?_update {j o : Json} (hj : Object P j) (ho : Object Q o) (key : String) :
    (j.update o).get? key = (o.get? key).or (j.get? key) := by
  obtain ⟨ms, rfl, -, -⟩ := hj
  obtain ⟨os, rfl, hos, -⟩ := ho
  cases hfind : (object os).get? key with
  | some value =>
    exact get?_update_of_mem (List.pairwise_map.2 (hos.imp fun h => h.ne)) (mem_of_find hfind) ms
  | none =>
    refine get?_update_of_notMem (fun hmem => ?_) ms
    obtain ⟨m, hm, rfl⟩ := List.mem_map.1 hmem
    obtain ⟨value, hvalue⟩ := exists_find_of_mem hm
    exact Option.some_ne_none value (hvalue.symm.trans hfind)

/-- The members that have a value are assigned, one after the other. -/
def assignAll (j : Json) (members : List (String × Option Json)) : Json :=
  members.foldl (fun j m => (m.2.map (j.set m.1)).getD j) j

theorem lookup_eq_none_of_notMem {members : List (String × Option Json)} {key : String}
    (h : key ∉ members.map Prod.fst) : members.lookup key = none :=
  List.lookup_eq_none_iff.2 fun m hm => bne_iff_ne.2 fun heq => h (List.mem_map.2 ⟨m, hm, heq.symm⟩)

/-- If no key comes twice, what is assigned to a key is found there, and all else is as before. -/
theorem Object.get?_assignAll {j : Json} (h : Object P j)
    {members : List (String × Option Json)} (hkeys : (members.map Prod.fst).Nodup) :
    Object (fun _ => True) (j.assignAll members) ∧ ∀ key, (j.assignAll members).get? key =
      (members.lookup key).join.or (j.get? key) := by
  have hobject : Object (fun _ => True) j := h.mono fun _ _ => trivial
  clear h
  induction members generalizing j with
  | nil => exact ⟨hobject, fun _ => rfl⟩
  | cons m members ih =>
    obtain ⟨k, assigned⟩ := m
    rw [List.map_cons, List.nodup_cons] at hkeys
    cases assigned with
    | none =>
      obtain ⟨hassigned, hget⟩ := ih hkeys.2 hobject
      refine ⟨hassigned, fun key => (hget key).trans ?_⟩
      rw [List.lookup_cons]
      by_cases hkey : key = k
      · subst hkey
        rw [beq_self_eq_true, lookup_eq_none_of_notMem hkeys.1]
        rfl
      · rw [beq_false_of_ne hkey]
    | some value =>
      have hset : Object (fun _ => True) (j.set k value) := hobject.set trivial
      obtain ⟨hassigned, hget⟩ := ih hkeys.2 hset
      refine ⟨hassigned, fun key => (hget key).trans ?_⟩
      rw [List.lookup_cons, hobject.get?_set]
      by_cases hkey : key = k
      · subst hkey
        rw [beq_self_eq_true, if_pos rfl, lookup_eq_none_of_notMem hkeys.1]
        rfl
      · rw [beq_false_of_ne hkey, if_neg (Ne.symm hkey)]

theorem find_of_mem (h : Sorted ms) {m : String × Json} (hm : m ∈ ms) :
    find m.1 ms = some m.2 := by
  induction ms with
  | nil => exact absurd hm List.not_mem_nil
  | cons first ms ih =>
    obtain ⟨hfirst, hrest⟩ := List.pairwise_cons.1 h
    rw [find]
    rcases List.mem_cons.1 hm with rfl | hm
    · exact if_pos rfl
    · rw [if_neg (hfirst m hm).ne, ih hrest hm]

/-- The members of an object, in the order of its keys. -/
def ofMember? (keys : List String) (member? : String → Option Json) : Json :=
  .object (keys.filterMap fun key => (member? key).map fun value => (key, value))

theorem sorted_filterMap {keys : List String} (hkeys : keys.Pairwise (· < ·))
    (member? : String → Option Json) :
    Sorted (keys.filterMap fun key => (member? key).map fun value => (key, value)) := by
  refine List.Pairwise.filterMap _ (fun k k' hlt m hm m' hm' => ?_) hkeys
  obtain ⟨value, -, rfl⟩ := Option.map_eq_some_iff.1 hm
  obtain ⟨value', -, rfl⟩ := Option.map_eq_some_iff.1 hm'
  exact hlt

theorem object_ofMember? {keys : List String} (hkeys : keys.Pairwise (· < ·))
    (member? : String → Option Json) : Object (fun _ => True) (ofMember? keys member?) :=
  ⟨_, rfl, sorted_filterMap hkeys member?, fun _ _ => trivial⟩

/-- An object is given by its members. -/
theorem Object.eq_ofMember? {j : Json} (h : Object P j) {keys : List String}
    (hkeys : keys.Pairwise (· < ·)) (hall : ∀ key, key ∉ keys → j.get? key = none) :
    j = ofMember? keys j.get? := by
  obtain ⟨ms, rfl, hsorted, -⟩ := h
  have hirrefl : ∀ {l : List (String × Json)}, Sorted l → l.Nodup := fun hl =>
    hl.imp fun hlt heq => absurd (congrArg Prod.fst heq) hlt.ne
  have hsorted' := sorted_filterMap hkeys fun key => find key ms
  refine congrArg object (List.Perm.eq_of_pairwise
    (fun m m' _ _ hlt hlt' => absurd hlt' hlt.asymm) hsorted hsorted' ?_)
  change ms.Perm (keys.filterMap fun key => (find key ms).map fun value => (key, value))
  rw [List.perm_ext_iff_of_nodup (hirrefl hsorted) (hirrefl hsorted')]
  intro m
  simp only [List.mem_filterMap, Option.map_eq_some_iff]
  constructor
  · intro hm
    refine ⟨m.1, ?_, m.2, find_of_mem hsorted hm, rfl⟩
    by_contra hnot
    exact Option.some_ne_none _ ((find_of_mem hsorted hm).symm.trans (hall m.1 hnot))
  · rintro ⟨key, -, value, hfind, rfl⟩
    exact mem_of_find hfind

/-! ## Parsing what was printed -/

mutual

/-- What parsing makes of the text of a value: an integer is read as an unsigned one, unless it is
    negative. -/
def reparsed : Json → Json
  | .integer n => if n.toInt < 0 then .integer n else .unsigned (UInt64.ofNat n.toInt.toNat)
  | .array items => .array (reparsedItems items)
  | .object ms => .object (reparsedMembers ms)
  | .null => .null
  | .boolean b => .boolean b
  | .unsigned n => .unsigned n
  | .float bits => .float bits
  | .string s => .string s

/-- What parsing makes of the items of an array. -/
def reparsedItems : List Json → List Json
  | [] => []
  | j :: js => reparsed j :: reparsedItems js

/-- What parsing makes of the members of an object. -/
def reparsedMembers : List (String × Json) → List (String × Json)
  | [] => []
  | (k, j) :: ms => (k, reparsed j) :: reparsedMembers ms

end

/-- An integer is what it was up to its type, and other scalars are what they were. -/
theorem reparsed_cases (v : Json) : v.reparsed = v ∨
    (∃ n : Int64, 0 ≤ n.toInt ∧ v = .integer n ∧
      v.reparsed = .unsigned (UInt64.ofNat n.toInt.toNat)) ∨
    (∃ items, v = .array items ∧ v.reparsed = .array (reparsedItems items)) ∨
    ∃ ms, v = .object ms ∧ v.reparsed = .object (reparsedMembers ms) := by
  cases v with
  | integer n =>
    by_cases hneg : n.toInt < 0
    · exact .inl (if_pos hneg)
    · exact .inr (.inl ⟨n, not_lt.1 hneg, rfl, if_neg hneg⟩)
  | array items => exact .inr (.inr (.inl ⟨items, rfl, rfl⟩))
  | object ms => exact .inr (.inr (.inr ⟨ms, rfl, rfl⟩))
  | null | boolean | unsigned | float | string => exact .inl rfl

theorem find_reparsedMembers (key : String) (ms : List (String × Json)) :
    find key (reparsedMembers ms) = (find key ms).map reparsed := by
  induction ms with
  | nil => rw [reparsedMembers, find, Option.map_none]
  | cons m ms ih =>
    obtain ⟨k, j⟩ := m
    rw [reparsedMembers, find, find, ih]
    split
    · rfl
    · rfl

theorem get?_reparsed (j : Json) (key : String) :
    j.reparsed.get? key = (j.get? key).map reparsed := by
  cases j with
  | object ms =>
    rw [reparsed, get?_object, get?_object, find_reparsedMembers]
  | integer n =>
    rw [reparsed]
    split
    · rfl
    · rfl
  | null | boolean | unsigned | float | string | array =>
    rw [reparsed]
    rfl

end IpServer.Json

namespace IpServer.JsonLibrary

variable (lib : JsonLibrary)

/-- Parsing a value that was printed, with a line end after it, gives the value. -/
def Undoes (j : Json) : Prop :=
  ∀ text, lib.dumpIndented 0 j = .ok text → lib.extract (text ++ "\n") = .ok j.reparsed

end IpServer.JsonLibrary
