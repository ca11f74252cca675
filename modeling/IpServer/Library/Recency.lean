import Mathlib.Data.Finset.Card
import Mathlib.Data.List.Dedup
import IpServer.Library.LinkedMap

/-!
# The order of use

A container that keeps its keys in the order of their last use, most recently used
first, and forgets keys from time to time. Which order that is, is said of the
history: `recency touches` is what the list of the keys used, in the order of the
uses, makes of it. `InOrder touches m l` says that the list `l` holds the keys of
the map `m` in this order.

* `InOrder.pushFront`, `InOrder.spliceFront`: a key is used, for the first time or again;
* `InOrder.of_sublist`: whatever is forgotten, the rest stays in order;
* `InOrder.length_of_back`: the keys that the list holds, but for the one at its back, have
  been used since that one was.
-/

namespace IpServer

section Recency

variable {κ : Type*} [DecidableEq κ] (touches : List κ)

/-- The keys used, from the one used last to the one not used for longest. -/
def recency : List κ := touches.dedup.reverse

variable {touches}

@[simp] theorem recency_nil : recency ([] : List κ) = [] := rfl

@[simp] theorem mem_recency {k : κ} : k ∈ recency touches ↔ k ∈ touches := by
  rw [recency, List.mem_reverse, List.mem_dedup]

theorem nodup_recency : (recency touches).Nodup := List.nodup_reverse.2 touches.nodup_dedup

theorem length_filter_recency (p : κ → Bool) :
    ((recency touches).filter p).length = (touches.toFinset.filter (p ·)).card := by
  rw [← List.toFinset_card_of_nodup (nodup_recency.filter p)]
  congr 1
  ext k
  simp

theorem dedup_concat (touches : List κ) (k : κ) :
    (touches ++ [k]).dedup = touches.dedup.filter (· ≠ k) ++ [k] := by
  induction touches with
  | nil => rfl
  | cons k' touches ih =>
    rw [List.cons_append]
    by_cases hmem : k' ∈ touches
    · rw [List.dedup_cons_of_mem (List.mem_append_left _ hmem), List.dedup_cons_of_mem hmem, ih]
    · rw [List.dedup_cons_of_notMem hmem]
      by_cases hk : k' = k
      · subst hk
        rw [List.dedup_cons_of_mem List.mem_concat_self, ih, List.filter_cons_of_neg (by simp)]
      · have hmem' : k' ∉ touches ++ [k] := by simp [hmem, hk]
        rw [List.dedup_cons_of_notMem hmem', ih, List.filter_cons_of_pos (by simpa using hk),
          List.cons_append]

/-- A key that is used comes first; the order of the others stays. -/
theorem recency_concat (k : κ) :
    recency (touches ++ [k]) = k :: (recency touches).filter (· ≠ k) := by
  rw [recency, dedup_concat, List.reverse_append, recency, List.filter_reverse]
  rfl

/-- The keys used after the last use of `k` come before it. -/
theorem recency_append_cons {pre post : List κ} {k : κ} (hk : k ∉ post) :
    ∃ rest, recency (pre ++ k :: post) = recency post ++ k :: rest := by
  obtain ⟨t, -, ht⟩ := List.sublist_suffix_of_union pre (k :: post).dedup
  refine ⟨t.reverse, ?_⟩
  rw [recency, List.dedup_append, ← ht, List.dedup_cons_of_notMem hk, List.reverse_append,
    List.reverse_cons, recency, List.append_assoc, List.singleton_append]

end Recency

/-- A key that was used was used for a last time. -/
theorem exists_last_mem {κ : Type*} {touches : List κ} {k : κ} (h : k ∈ touches) :
    ∃ pre post, touches = pre ++ k :: post ∧ k ∉ post := by
  obtain ⟨post, pre, heq, hk⟩ := List.eq_append_cons_of_mem (List.mem_reverse.2 h)
  refine ⟨pre.reverse, post.reverse, ?_, fun hmem => hk (List.mem_reverse.1 hmem)⟩
  rw [← List.reverse_reverse touches, heq, List.reverse_append, List.reverse_cons,
    List.append_assoc, List.singleton_append]

/-- The list `l` holds the keys of the map `m` in the order of their last use. -/
def InOrder {κ β : Type*} [DecidableEq κ] (touches : List κ) (m : Dict κ β) (l : NodeList κ) :
    Prop :=
  l.values = (recency touches).filter fun k => (m.lookup k).isSome

namespace InOrder

variable {κ β : Type*} [DecidableEq κ] {it : β → ℕ} {touches : List κ} {m m' : Dict κ β}
  {l l' : NodeList κ}

protected theorem empty (touches : List κ) :
    InOrder touches (∅ : Dict κ β) (NodeList.empty : NodeList κ) := by
  rw [InOrder, NodeList.values_empty, eq_comm, List.filter_eq_nil_iff]
  intro k _
  rw [AList.lookup_empty]
  exact Bool.false_ne_true

/-- Only which keys the map holds matters. -/
theorem congr (h : InOrder touches m l) (hm : ∀ k, (m'.lookup k).isSome = (m.lookup k).isSome) :
    InOrder touches m' l := by
  rw [InOrder, h]
  exact List.filter_congr fun k _ => (hm k).symm

/-- Updating a record in place does not matter. -/
theorem insert_same (h : InOrder touches m l) {k : κ} {v : β} (hk : m.lookup k = some v) (v' : β) :
    InOrder touches (m.insert k v') l := by
  refine h.congr fun k' => ?_
  by_cases heq : k' = k
  · subst heq
    rw [AList.lookup_insert, hk]
    rfl
  · rw [AList.lookup_insert_ne heq]

/-- A key without a record is used: it gets one, and a node at the front. -/
theorem pushFront (h : InOrder touches m l) {k : κ} (hk : m.lookup k = none) (v : β) :
    InOrder (touches ++ [k]) (m.insert k v) (l.pushFront k) := by
  rw [InOrder, NodeList.values_pushFront, recency_concat, List.filter_cons_of_pos, h,
    List.filter_filter]
  · refine congrArg _ (List.filter_congr fun k' _ => ?_)
    by_cases heq : k' = k
    · subst heq
      simp [hk]
    · simp [AList.lookup_insert_ne heq, heq]
  · rw [AList.lookup_insert]
    rfl

/-- A key with a record is used: its node is moved to the front. -/
theorem spliceFront (h : InOrder touches m l) (hl : Linked it m l) {k : κ} {v : β}
    (hk : m.lookup k = some v) : InOrder (touches ++ [k]) m (l.spliceFront (it v)) := by
  rw [InOrder, hl.wf.values_spliceFront (hl.node k v hk), recency_concat, List.filter_cons_of_pos,
    hl.values_erase hk, h, List.filter_filter, List.filter_filter]
  · exact congrArg _ (List.filter_congr fun k' _ => Bool.and_comm _ _)
  · rw [hk]
    rfl

/-- Whatever is forgotten, the rest stays in order. -/
theorem of_sublist (h : InOrder touches m l) (hl : Linked it m l) (hl' : Linked it m' l')
    (hsub : l'.values.Sublist l.values) : InOrder touches m' l' := by
  rw [InOrder, hl.values_of_sublist hl' hsub, h, List.filter_filter]
  refine List.filter_congr fun k _ => ?_
  by_cases hk : (m'.lookup k).isSome = true
  · have hlive : (m.lookup k).isSome = true := by
      rw [Option.isSome_iff_exists]
      exact hl.mem_values.1 (hsub.subset (hl'.mem_values_iff.2 hk))
    rw [hk, hlive, Bool.and_self]
  · rw [Bool.eq_false_iff.2 hk, Bool.false_and]

/-- The keys that the list holds, but for the one at its back, have all been used since that
    one was. -/
theorem length_of_back (h : InOrder touches m l) {k : κ} (hback : l.back? = some k) :
    ∃ pre post, touches = pre ++ k :: post ∧ k ∉ post ∧
      l.values.length = (post.toFinset.filter fun k => (m.lookup k).isSome).card + 1 := by
  have hlast : l.values.getLast? = some k := by
    rw [NodeList.values, List.getLast?_map]
    exact hback
  have hlive := List.mem_of_getLast? hlast
  rw [h, List.mem_filter, mem_recency] at hlive
  obtain ⟨pre, post, rfl, hk⟩ := exists_last_mem hlive.1
  refine ⟨pre, post, rfl, hk, ?_⟩
  obtain ⟨rest, hrest⟩ := @recency_append_cons _ _ pre _ _ hk
  have hnodup := @nodup_recency _ _ (pre ++ k :: post)
  have hsplit : (k :: rest).filter (fun k => (m.lookup k).isSome) =
      k :: rest.filter fun k => (m.lookup k).isSome := List.filter_cons_of_pos hlive.2
  rw [InOrder, hrest, List.filter_append, hsplit] at h
  -- `k` is at the back of the list, so that nothing that comes after it is left
  have hnone : rest.filter (fun k => (m.lookup k).isSome) = [] := by
    rcases List.eq_nil_or_concat (rest.filter fun k => (m.lookup k).isSome) with
      hnil | ⟨ks, k', hk'⟩
    · exact hnil
    · rw [h, hk', List.concat_eq_append, ← List.cons_append, ← List.append_assoc,
        List.getLast?_concat, Option.some_inj] at hlast
      subst hlast
      have hmem : k' ∈ rest := by
        refine List.mem_of_mem_filter (p := fun k => (m.lookup k).isSome) ?_
        rw [hk', List.concat_eq_append]
        exact List.mem_concat_self
      rw [hrest, List.nodup_append, List.nodup_cons] at hnodup
      exact absurd hmem hnodup.2.1.1
  rw [h, hnone, List.length_append, List.length_singleton, length_filter_recency]

end InOrder

end IpServer
