import Mathlib.Data.List.Dedup
import Mathlib.Data.Finset.Card
import Mathlib.Order.Basic

/-!
# Sorted sets

Members with a score each, as a Redis server keeps them. A member has one score.
-/

structure SortedSet (M S : Type) where
  entries : List (M × S)
  nodup : (entries.map Prod.fst).Nodup

namespace SortedSet

variable {M S : Type}

instance instInhabited : Inhabited (SortedSet M S) := ⟨⟨[], List.nodup_nil⟩⟩

def members (z : SortedSet M S) : List M := z.entries.map Prod.fst

def zcard (z : SortedSet M S) : ℕ := z.entries.length

theorem nodup_filter (z : SortedSet M S) (p : M × S → Bool) :
    ((z.entries.filter p).map Prod.fst).Nodup :=
  z.nodup.sublist (List.filter_sublist.map Prod.fst)

/-- `ZREMRANGEBYSCORE`, with both bounds removed too. -/
def zremrangebyscore [LE S] [DecidableLE S] (lo hi : S) (z : SortedSet M S) : SortedSet M S where
  entries := z.entries.filter fun e => ¬(lo ≤ e.2 ∧ e.2 ≤ hi)
  nodup := z.nodup_filter _

theorem mem_zremrangebyscore [LE S] [DecidableLE S] {lo hi : S} {z : SortedSet M S}
    {e : M × S} :
    e ∈ (z.zremrangebyscore lo hi).entries ↔ e ∈ z.entries ∧ ¬(lo ≤ e.2 ∧ e.2 ≤ hi) := by
  simp only [zremrangebyscore, List.mem_filter, decide_eq_true_eq]

variable [DecidableEq M]

theorem nodup_zadd (m : M) (s : S) (z : SortedSet M S) :
    ((z.entries.filter (fun e => e.1 ≠ m) ++ [(m, s)]).map Prod.fst).Nodup := by
  rw [List.map_append, List.nodup_append]
  refine ⟨z.nodup_filter _, List.nodup_singleton m, ?_⟩
  intro a ha b hb
  obtain ⟨e, he, rfl⟩ := List.mem_map.mp ha
  obtain rfl : b = m := by simpa using hb
  simpa using (List.mem_filter.mp he).2

/-- `ZADD`: a member that is there gets the new score. -/
def zadd (m : M) (s : S) (z : SortedSet M S) : SortedSet M S where
  entries := z.entries.filter (fun e => e.1 ≠ m) ++ [(m, s)]
  nodup := z.nodup_zadd m s

theorem mem_zadd {m : M} {s : S} {z : SortedSet M S} {e : M × S} :
    e ∈ (z.zadd m s).entries ↔ e ∈ z.entries ∧ e.1 ≠ m ∨ e = (m, s) := by
  simp [zadd, List.mem_filter]

theorem zcard_eq_card {z : SortedSet M S} {t : Finset M} (h : ∀ m, m ∈ z.members ↔ m ∈ t) :
    z.zcard = t.card := by
  have hfinset : z.members.toFinset = t := by
    ext m
    rw [List.mem_toFinset, h]
  rw [← hfinset, members, List.toFinset_card_of_nodup z.nodup, List.length_map, zcard]

end SortedSet
