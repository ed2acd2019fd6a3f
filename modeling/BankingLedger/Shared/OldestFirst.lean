import Mathlib.Data.Finset.Card
import Mathlib.Order.Defs.LinearOrder

set_option autoImplicit false

namespace OldestFirst

variable {K V T : Type} [LinearOrder T] {age : V → T} {entries : List (K × V)}

theorem age_of_split (sorted : entries.Pairwise fun a b => age a.2 ≤ age b.2) (batch : Nat)
    {old new : K × V} (taken : old ∈ entries.take batch) (left : new ∈ entries.drop batch) :
    age old.2 ≤ age new.2 := by
  rw [← List.take_append_drop batch entries, List.pairwise_append] at sorted
  exact sorted.2.2 old taken new left

theorem not_mem_oldest [DecidableEq K] (sorted : entries.Pairwise fun a b => age a.2 ≤ age b.2)
    (nodup : (entries.map Prod.fst).Nodup) {key : K} {value : V} (present : (key, value) ∈ entries)
    {newer : Finset K}
    (recent : ∀ other v, (other, v) ∈ entries → other ≠ key → age value ≤ age v → other ∈ newer)
    {batch : Nat} (few : newer.card + batch < entries.length) :
    key ∉ (entries.take batch).map Prod.fst := by
  intro taken
  obtain ⟨⟨_, v⟩, in_batch, rfl⟩ := List.mem_map.mp taken
  have same : v = value :=
    congrArg Prod.snd (List.inj_on_of_nodup_map nodup (List.mem_of_mem_take in_batch) present rfl)
  subst same
  rw [← List.take_append_drop batch entries, List.map_append, List.nodup_append] at nodup
  have behind : ((entries.drop batch).map Prod.fst).toFinset ⊆ newer := by
    intro other member
    obtain ⟨⟨_, v'⟩, left, rfl⟩ := List.mem_map.mp (List.mem_toFinset.mp member)
    have apart := nodup.2.2 _ taken _ (List.mem_map_of_mem left)
    exact recent _ v' (List.mem_of_mem_drop left) apart.symm (age_of_split sorted batch in_batch left)
  have count := Finset.card_le_card behind
  rw [List.toFinset_card_of_nodup nodup.2.1, List.length_map, List.length_drop] at count
  omega

end OldestFirst
