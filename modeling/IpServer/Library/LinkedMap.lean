import Mathlib.Data.List.AList
import Mathlib.Algebra.BigOperators.Group.List.Basic
import Mathlib.Algebra.GroupWithZero.Nat
import IpServer.Library.NodeList

/-!
# Maps linked to a list

The usual layout of a recency-ordered container: a map from keys to records,
each of which holds the handle of the node of its key in a linked list. `Linked`
says that the two agree: every record's handle designates the node of its key,
and every node belongs to a record. It is preserved when a key is inserted with
a new node at the front, when a record is updated in place, when a node is
spliced to the front, and when a record and its node are erased together.

`Dict.total` sums a weight over the records, with how it changes when a key is
inserted or erased. `Linked.sweep` erases, in one pass over the map, the records
that satisfy a predicate, each with its node.
-/

namespace IpServer

/-- A finite map from `κ` to `β`. -/
abbrev Dict (κ β : Type*) := AList fun _ : κ => β

namespace Dict

variable {κ β : Type*}

/-- The sum of the weights `f` of the records. -/
def total (f : β → ℕ) (m : Dict κ β) : ℕ := (m.entries.map fun e => f e.2).sum

@[simp] theorem total_empty (f : β → ℕ) : total f (∅ : Dict κ β) = 0 := rfl

/-- The number of records is their sum, each of them counting one. -/
theorem length_eq_total (m : Dict κ β) : m.entries.length = total (fun _ => 1) m := by
  simp [total]

/-- Every record is replaced by `f` of its key and itself. -/
def mapVal (f : κ → β → β) (m : Dict κ β) : Dict κ β where
  entries := m.entries.map (Sigma.map id f)
  nodupKeys := m.nodupKeys.map₂ f

theorem keys_mapVal (f : κ → β → β) (m : Dict κ β) : (mapVal f m).keys = m.keys :=
  List.map₂_keys f m.entries

variable [DecidableEq κ] {m : Dict κ β}

@[simp] theorem lookup_mapVal (f : κ → β → β) (k : κ) :
    (mapVal f m).lookup k = (m.lookup k).map (f k) :=
  List.dlookup_map₂ k

/-- The sum over a map that holds `k` is the weight of `k` and the sum of the rest. -/
theorem total_of_lookup (f : β → ℕ) {k : κ} {v : β} (h : m.lookup k = some v) :
    total f m = f v + total f (m.erase k) := by
  have hk : k ∈ m.entries.keys := AList.lookup_isSome.1 (by rw [h]; rfl)
  obtain ⟨b, l₁, l₂, -, hm, herase⟩ := List.exists_of_kerase hk
  have hb : m.lookup k = some b := AList.mem_lookup_iff.2 (by rw [hm]; simp)
  obtain rfl : b = v := Option.some_inj.1 (hb.symm.trans h)
  have hentries : (m.erase k).entries = l₁ ++ l₂ := herase
  simp only [total, hentries]
  rw [hm, List.map_append, List.map_cons, List.sum_append, List.sum_cons, List.map_append,
    List.sum_append]
  exact Nat.add_left_comm _ _ _

theorem total_insert (f : β → ℕ) (k : κ) (v : β) :
    total f (m.insert k v) = f v + total f (m.erase k) := by
  have hentries : (m.erase k).entries = m.entries.kerase k := rfl
  simp only [total, hentries, AList.entries_insert, List.map_cons, List.sum_cons]

theorem erase_of_lookup_none {k : κ} (h : m.lookup k = none) : m.erase k = m :=
  AList.ext (List.kerase_of_notMem_keys (AList.lookup_eq_none.1 h))

/-- A new key adds a record, and a key that has one keeps their number. -/
theorem length_insert_of_none {k : κ} (h : m.lookup k = none) (v : β) :
    (m.insert k v).entries.length = m.entries.length + 1 := by
  rw [length_eq_total, total_insert, erase_of_lookup_none h, ← length_eq_total, Nat.add_comm]

theorem length_insert_of_some {k : κ} {w : β} (h : m.lookup k = some w) (v : β) :
    (m.insert k v).entries.length = m.entries.length := by
  rw [length_eq_total, total_insert, length_eq_total, total_of_lookup _ h]

/-- One pass over the records `es`: those with `p` are erased, each with its node. -/
def sweep (it : β → ℕ) (p : β → Bool) (s : Dict κ β × NodeList κ)
    (es : List (Sigma fun _ : κ => β)) : Dict κ β × NodeList κ :=
  es.foldl (fun s e => if p e.2 then (s.1.erase e.1, s.2.erase (it e.2)) else s) s

/-- A pass only takes nodes off the list. -/
theorem sublist_values_sweep (it : β → ℕ) (p : β → Bool) (s : Dict κ β × NodeList κ)
    (es : List (Sigma fun _ : κ => β)) : (sweep it p s es).2.values.Sublist s.2.values := by
  induction es generalizing s with
  | nil => exact List.Sublist.refl _
  | cons e es ih =>
    rw [sweep, List.foldl_cons]
    refine (ih _).trans ?_
    split
    · exact NodeList.sublist_values_erase _
    · exact List.Sublist.refl _

end Dict

/-- The map `m` and the list `l` agree: the handle `it v` of a record `v` designates
    the node of its key, and there are no other nodes. -/
structure Linked {κ β : Type*} [DecidableEq κ] (it : β → ℕ) (m : Dict κ β) (l : NodeList κ) :
    Prop where
  wf : l.WellFormed
  node : ∀ k v, m.lookup k = some v → (it v, k) ∈ l.nodes
  record : ∀ n ∈ l.nodes, ∃ v, m.lookup n.2 = some v ∧ it v = n.1

namespace Linked

variable {κ β : Type*} [DecidableEq κ] {it : β → ℕ} {m : Dict κ β} {l : NodeList κ}

protected theorem empty : Linked it (∅ : Dict κ β) (NodeList.empty : NodeList κ) where
  wf := .empty
  node _ _ h := by simp at h
  record _ h := absurd h List.not_mem_nil

/-- The list holds exactly the keys of the map. -/
theorem mem_values (h : Linked it m l) {k : κ} : k ∈ l.values ↔ ∃ v, m.lookup k = some v := by
  rw [NodeList.mem_values]
  constructor
  · rintro ⟨n, hn⟩
    obtain ⟨v, hv, _⟩ := h.record _ hn
    exact ⟨v, hv⟩
  · rintro ⟨v, hv⟩
    exact ⟨it v, h.node k v hv⟩

/-- No key has two nodes. -/
theorem nodup_values (h : Linked it m l) : l.values.Nodup := by
  refine (List.Nodup.of_map _ h.wf.nodup).map_on fun n hn n' hn' heq => ?_
  obtain ⟨v, hv, hit⟩ := h.record n hn
  obtain ⟨v', hv', hit'⟩ := h.record n' hn'
  rw [heq, hv'] at hv
  cases hv
  exact Prod.ext (hit.symm.trans hit') heq

/-- The keys of the map, in the order of the list. -/
theorem perm_values (h : Linked it m l) : l.values.Perm m.keys := by
  rw [List.perm_ext_iff_of_nodup h.nodup_values m.keys_nodup]
  intro k
  rw [h.mem_values, ← Option.isSome_iff_exists, AList.lookup_isSome, AList.mem_keys]

theorem length_values (h : Linked it m l) : l.values.length = m.entries.length := by
  rw [h.perm_values.length_eq, AList.keys, List.keys, List.length_map]

theorem mem_values_iff (h : Linked it m l) {k : κ} :
    k ∈ l.values ↔ (m.lookup k).isSome = true := by
  rw [h.mem_values, Option.isSome_iff_exists]

/-- If nodes are only taken off the list, the keys that have a record are left, in the same
    order. -/
theorem values_of_sublist {m' : Dict κ β} {l' : NodeList κ} (h : Linked it m l)
    (h' : Linked it m' l') (hsub : l'.values.Sublist l.values) :
    l'.values = l.values.filter fun k => (m'.lookup k).isSome := by
  have hself : l'.values.filter (fun k => (m'.lookup k).isSome) = l'.values :=
    List.filter_eq_self.2 fun k hk => h'.mem_values_iff.1 hk
  have hfilter := hsub.filter fun k => (m'.lookup k).isSome
  rw [hself] at hfilter
  refine hfilter.eq_of_length (List.Perm.length_eq ?_)
  rw [List.perm_ext_iff_of_nodup h'.nodup_values (h.nodup_values.filter _)]
  intro k
  rw [List.mem_filter, ← h'.mem_values_iff]
  exact ⟨fun hk => ⟨hsub.subset hk, hk⟩, And.right⟩

/-- The sum over the records is the sum along the list. -/
theorem total_eq_sum (h : Linked it m l) (f : β → ℕ) :
    Dict.total f m = (l.values.map fun k => ((m.lookup k).map f).getD 0).sum := by
  rw [(h.perm_values.map _).sum_eq, Dict.total, AList.keys, List.keys, List.map_map]
  refine congrArg _ (List.map_congr_left fun e he => ?_)
  have hlookup : m.lookup e.1 = some e.2 := AList.mem_lookup_iff.2 he
  rw [Function.comp_apply, hlookup]
  rfl

/-- Two records with the same handle are those of one key. -/
theorem key_eq_of_handle (h : Linked it m l) {k k' : κ} {v v' : β} (hv : m.lookup k = some v)
    (hv' : m.lookup k' = some v') (hit : it v = it v') : k = k' := by
  have h₁ := h.node k v hv
  have h₂ := h.node k' v' hv'
  rw [hit] at h₁
  have := List.inj_on_of_nodup_map h.wf.nodup h₁ h₂ rfl
  exact congrArg Prod.snd this

/-- Erasing the node of a key takes the key off the list. -/
theorem values_erase (h : Linked it m l) {k : κ} {v : β} (hv : m.lookup k = some v) :
    (l.erase (it v)).values = l.values.filter (· ≠ k) := by
  rw [NodeList.values, NodeList.values, List.filter_map]
  refine congrArg _ (List.filter_congr fun n hn => ?_)
  rw [Function.comp_apply, decide_eq_decide, not_iff_not]
  obtain ⟨v', hv', hit⟩ := h.record n hn
  constructor
  · exact fun heq => h.key_eq_of_handle hv' hv (hit.trans heq)
  · intro heq
    rw [heq, hv, Option.some_inj] at hv'
    rw [← hit, hv']

/-- A key that has no record is inserted with a new node at the front. -/
theorem insert_pushFront (h : Linked it m l) {k : κ} {v : β} (hk : m.lookup k = none)
    (hit : it v = l.next) : Linked it (m.insert k v) (l.pushFront k) where
  wf := h.wf.pushFront k
  node k' v' hv' := by
    by_cases hkk : k' = k
    · subst hkk
      rw [AList.lookup_insert, Option.some_inj] at hv'
      exact NodeList.mem_pushFront.2 (.inl (by rw [← hv', hit]))
    · rw [AList.lookup_insert_ne hkk] at hv'
      exact NodeList.mem_pushFront.2 (.inr (h.node k' v' hv'))
  record n hn := by
    rcases NodeList.mem_pushFront.1 hn with rfl | hn
    · exact ⟨v, AList.lookup_insert m, hit⟩
    · obtain ⟨v', hv', hit'⟩ := h.record n hn
      have hne : n.2 ≠ k := fun heq => by rw [heq, hk] at hv'; exact absurd hv' (by simp)
      exact ⟨v', by rw [AList.lookup_insert_ne hne, hv'], hit'⟩

/-- A record is updated in place, keeping its handle. -/
theorem insert_same (h : Linked it m l) {k : κ} {v v' : β} (hv : m.lookup k = some v)
    (hit : it v' = it v) : Linked it (m.insert k v') l where
  wf := h.wf
  node k' w hw := by
    by_cases hkk : k' = k
    · subst hkk
      rw [AList.lookup_insert, Option.some_inj] at hw
      rw [← hw, hit]
      exact h.node k' v hv
    · rw [AList.lookup_insert_ne hkk] at hw
      exact h.node k' w hw
  record n hn := by
    obtain ⟨w, hw, hitw⟩ := h.record n hn
    by_cases hnk : n.2 = k
    · rw [hnk, hv, Option.some_inj] at hw
      exact ⟨v', by rw [hnk, AList.lookup_insert], by rw [hit, hw, hitw]⟩
    · exact ⟨w, by rw [AList.lookup_insert_ne hnk, hw], hitw⟩

/-- A node is moved to the front. -/
theorem spliceFront (h : Linked it m l) (n : ℕ) : Linked it m (l.spliceFront n) where
  wf := h.wf.spliceFront n
  node k v hv := NodeList.mem_spliceFront.2 (h.node k v hv)
  record n' hn' := h.record n' (NodeList.mem_spliceFront.1 hn')

/-- A record and its node are erased together. -/
theorem erase (h : Linked it m l) {k : κ} {v : β} (hv : m.lookup k = some v) :
    Linked it (m.erase k) (l.erase (it v)) where
  wf := h.wf.erase _
  node k' v' hv' := by
    have hne : k' ≠ k := fun heq => by
      rw [heq, AList.lookup_erase] at hv'
      exact absurd hv' (by simp)
    rw [AList.lookup_erase_ne hne] at hv'
    exact NodeList.mem_erase.2 ⟨h.node k' v' hv', fun heq => hne (h.key_eq_of_handle hv' hv heq)⟩
  record n hn := by
    obtain ⟨hn, hne⟩ := NodeList.mem_erase.1 hn
    obtain ⟨v', hv', hit'⟩ := h.record n hn
    have hk : n.2 ≠ k := fun heq => by
      rw [heq, hv, Option.some_inj] at hv'
      exact hne (by rw [← hit', hv'])
    exact ⟨v', by rw [AList.lookup_erase_ne hk, hv'], hit'⟩

/-- All records are updated in place, keeping their handles. -/
theorem mapVal (h : Linked it m l) {f : κ → β → β} (hf : ∀ k v, it (f k v) = it v) :
    Linked it (Dict.mapVal f m) l where
  wf := h.wf
  node k v hv := by
    rw [Dict.lookup_mapVal, Option.map_eq_some_iff] at hv
    obtain ⟨w, hw, rfl⟩ := hv
    rw [hf]
    exact h.node k w hw
  record n hn := by
    obtain ⟨w, hw, hit⟩ := h.record n hn
    exact ⟨f n.2 w, by rw [Dict.lookup_mapVal, hw]; rfl, by rw [hf, hit]⟩

/-- A pass over records that the map holds keeps the map and the list in agreement,
    and leaves of the records passed over those without `p`. -/
theorem sweep_spec {p : β → Bool} {es : List (Sigma fun _ : κ => β)} (hes : es.NodupKeys)
    (h : Linked it m l) (hmem : ∀ e ∈ es, m.lookup e.1 = some e.2) :
    Linked it (Dict.sweep it p (m, l) es).1 (Dict.sweep it p (m, l) es).2 ∧
      ∀ k, (Dict.sweep it p (m, l) es).1.lookup k =
        if es.any fun e => decide (e.1 = k) && p e.2 then none else m.lookup k := by
  induction es generalizing m l with
  | nil => exact ⟨h, fun k => by simp [Dict.sweep]⟩
  | cons e es ih =>
    rw [List.nodupKeys_cons] at hes
    by_cases hp : p e.2
    · -- the record is erased, and those still to be passed over are other ones
      have hother : ∀ e' ∈ es, e'.1 ≠ e.1 := fun e' he' heq =>
        hes.1 (heq ▸ List.mem_keys_of_mem he')
      have hmem' : ∀ e' ∈ es, (m.erase e.1).lookup e'.1 = some e'.2 := fun e' he' => by
        rw [AList.lookup_erase_ne (hother e' he')]
        exact hmem e' (List.mem_cons_of_mem _ he')
      obtain ⟨hlinked, hlookup⟩ := ih hes.2 (h.erase (hmem e List.mem_cons_self)) hmem'
      have hstep : Dict.sweep it p (m, l) (e :: es) =
          Dict.sweep it p (m.erase e.1, l.erase (it e.2)) es := by
        simp [Dict.sweep, hp]
      rw [hstep]
      refine ⟨hlinked, fun k => ?_⟩
      rw [hlookup k]
      by_cases hk : k = e.1
      · subst hk
        simp [hp]
      · rw [List.any_cons, decide_eq_false (Ne.symm hk), Bool.false_and, Bool.false_or,
          AList.lookup_erase_ne hk]
    · have hstep : Dict.sweep it p (m, l) (e :: es) = Dict.sweep it p (m, l) es := by
        simp [Dict.sweep, hp]
      rw [hstep]
      obtain ⟨hlinked, hlookup⟩ := ih hes.2 h fun e' he' => hmem e' (List.mem_cons_of_mem _ he')
      refine ⟨hlinked, fun k => ?_⟩
      rw [hlookup k, List.any_cons, Bool.eq_false_iff.2 hp, Bool.and_false, Bool.false_or]

/-- A pass over the whole map leaves the records without `p`. -/
theorem lookup_sweep (h : Linked it m l) (p : β → Bool) (k : κ) :
    (Dict.sweep it p (m, l) m.entries).1.lookup k = (m.lookup k).filter (!p ·) := by
  have hmem : ∀ e ∈ m.entries, m.lookup e.1 = some e.2 := fun e he => AList.mem_lookup_iff.2 he
  rw [(h.sweep_spec m.nodupKeys hmem).2 k]
  cases hk : m.lookup k with
  | none => simp
  | some v =>
    have hany : (m.entries.any fun e => decide (e.1 = k) && p e.2) = p v := by
      rw [Bool.eq_iff_iff, List.any_eq_true]
      constructor
      · rintro ⟨e, he, hp⟩
        obtain ⟨rfl, hp⟩ : e.1 = k ∧ p e.2 := by simpa using hp
        rw [hmem e he, Option.some_inj] at hk
        rwa [← hk]
      · exact fun hp => ⟨⟨k, v⟩, AList.mem_lookup_iff.1 hk, by simpa using hp⟩
    by_cases hp : p v <;> simp [hany, hp, Option.filter]

protected theorem sweep (h : Linked it m l) (p : β → Bool) :
    Linked it (Dict.sweep it p (m, l) m.entries).1 (Dict.sweep it p (m, l) m.entries).2 :=
  (h.sweep_spec m.nodupKeys fun _ he => AList.mem_lookup_iff.2 he).1

/-- The node at the back belongs to a record. -/
theorem lookup_back (h : Linked it m l) {k : κ} (hk : l.back? = some k) :
    ∃ v, m.lookup k = some v ∧ ∃ ns, l.nodes = ns ++ [(it v, k)] := by
  rw [NodeList.back?, Option.map_eq_some_iff] at hk
  obtain ⟨n, hn, rfl⟩ := hk
  obtain ⟨ns, hns⟩ := List.mem_getLast?_eq_getLast hn |>.elim fun hne heq =>
    (⟨l.nodes.dropLast, by rw [heq]; exact (List.dropLast_append_getLast hne).symm⟩ :
      ∃ ns, l.nodes = ns ++ [n])
  obtain ⟨v, hv, hit⟩ := h.record n (by rw [hns]; simp)
  exact ⟨v, hv, ns, by rw [hns, hit]⟩

/-- An empty list has no records. -/
theorem eq_empty (h : Linked it m l) (hl : l.back? = none) : m = ∅ := by
  have hnodes : l.nodes = [] := by simpa [NodeList.back?] using hl
  refine AList.ext ?_
  match hm : m.entries with
  | [] => rfl
  | e :: es =>
    have hlookup : m.lookup e.1 = some e.2 := AList.mem_lookup_iff.2 (by rw [hm]; simp)
    exact absurd (h.node _ _ hlookup) (by rw [hnodes]; exact List.not_mem_nil)

end Linked

end IpServer
