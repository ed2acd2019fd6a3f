import Mathlib.Data.Finmap
import Mathlib.Algebra.BigOperators.Group.Finset.Basic
import Mathlib.Algebra.BigOperators.Group.Finset.Piecewise
import Mathlib.Algebra.Order.BigOperators.Group.Finset

set_option autoImplicit false

namespace FiniteMap

variable {K V : Type} [DecidableEq K]

abbrev Map (K V : Type) : Type := Finmap fun _ : K => V

theorem lookup_insert_eq (m : Map K V) (key other : K) (value : V) :
    (m.insert key value).lookup other = if other = key then some value else m.lookup other := by
  by_cases same : other = key
  · subst same; simp
  · simp [same, Finmap.lookup_insert_of_ne]

theorem lookup_erase_eq (m : Map K V) (key other : K) :
    (m.erase key).lookup other = if other = key then none else m.lookup other := by
  by_cases same : other = key
  · subst same; simp
  · simp [same, Finmap.lookup_erase_ne]

def mapValues {W : Type} (f : V → W) (m : Map K V) : Map K W :=
  m.liftOn (fun l => (⟨l.entries.map (Sigma.map id fun _ => f), l.nodupKeys.map₂ _ _⟩ : AList _).toFinmap)
    fun _ _ same => AList.toFinmap_eq.mpr (same.map _)

theorem lookup_mapValues {W : Type} (f : V → W) (m : Map K V) (key : K) :
    (mapValues f m).lookup key = (m.lookup key).map f := by
  induction m using Finmap.induction_on with
  | _ l => exact List.dlookup_map₂ key

theorem lookup_insert_cases {m : Map K V} {key other : K} {value found : V}
    (lookup : (m.insert key value).lookup other = some found) :
    (other = key ∧ found = value) ∨ m.lookup other = some found := by
  rw [lookup_insert_eq] at lookup
  split at lookup
  · rename_i here
    exact .inl ⟨here, (Option.some.inj lookup).symm⟩
  · exact .inr lookup

theorem ne_of_lookup {m : Map K V} {key other : K} {value : V} (found : m.lookup key = some value)
    (missing : m.lookup other = none) : key ≠ other := by
  rintro rfl
  simp [found] at missing

theorem lookup_of_erase {m : Map K V} {key other : K} {value : V}
    (found : (m.erase key).lookup other = some value) : m.lookup other = some value := by
  rw [lookup_erase_eq] at found
  split at found
  · cases found
  · exact found

theorem insert_lookup_self {m : Map K V} {key : K} {value : V}
    (found : m.lookup key = some value) : m.insert key value = m := by
  apply Finmap.ext_lookup
  intro other
  rw [lookup_insert_eq]
  split
  · subst other; exact found.symm
  · rfl

theorem keys_insert (m : Map K V) (key : K) (value : V) : (m.insert key value).keys = insert key m.keys := by
  ext other
  rw [Finmap.mem_keys, Finmap.mem_insert, Finset.mem_insert, Finmap.mem_keys]

theorem mem_keys_iff {m : Map K V} {key : K} : key ∈ m.keys ↔ (m.lookup key).isSome := by
  rw [Finmap.mem_keys, Finmap.lookup_isSome]

theorem mem_keys_of_found {m : Map K V} {key : K} {value : V} (found : m.lookup key = some value) :
    key ∈ m.keys := by
  simp [mem_keys_iff, found]

def valueAt (measure : V → Int) (m : Map K V) (key : K) : Int := (m.lookup key).elim 0 measure

def total (measure : V → Int) (m : Map K V) : Int := ∑ key ∈ m.keys, valueAt measure m key

@[simp] theorem valueAt_of_found {measure : V → Int} {m : Map K V} {key : K} {value : V}
    (found : m.lookup key = some value) : valueAt measure m key = measure value := by
  simp [valueAt, found]

@[simp] theorem valueAt_of_missing {measure : V → Int} {m : Map K V} {key : K}
    (missing : m.lookup key = none) : valueAt measure m key = 0 := by
  simp [valueAt, missing]

theorem total_congr {measure : V → Int} {m m' : Map K V} (keys : m'.keys = m.keys)
    (change : K → Int)
    (values : ∀ key ∈ m.keys, valueAt measure m' key = valueAt measure m key + change key) :
    total measure m' = total measure m + ∑ key ∈ m.keys, change key := by
  rw [total, keys, total, ← Finset.sum_add_distrib]
  exact Finset.sum_congr rfl values

theorem total_insert {measure : V → Int} {m : Map K V} {key : K} {value : V}
    (found : m.lookup key = some value) (value' : V) :
    total measure (m.insert key value') = total measure m + (measure value' - measure value) := by
  have member : key ∈ m.keys := mem_keys_of_found found
  have keys : (m.insert key value').keys = m.keys := by
    rw [keys_insert, Finset.insert_eq_of_mem member]
  rw [total_congr keys (fun other => if other = key then measure value' - measure value else 0)]
  · rw [Finset.sum_ite_eq' m.keys key, if_pos member]
  · intro other _
    rw [valueAt, lookup_insert_eq]
    split
    · next same => rw [same, valueAt_of_found found, Option.elim_some, add_sub_cancel]
    · rw [add_zero, valueAt]

theorem total_insert_eq (m : Map K V) (measure : V → Int) (key : K) (value : V) :
    total measure (m.insert key value) = total measure m - valueAt measure m key + measure value := by
  cases found : m.lookup key with
  | some old =>
    rw [total_insert found, valueAt_of_found found]
    omega
  | none =>
    have absent : key ∉ m.keys := by
      rw [mem_keys_iff, found]
      simp
    rw [total, keys_insert, Finset.sum_insert absent, valueAt_of_missing found,
      valueAt_of_found (Finmap.lookup_insert m)]
    have others : ∀ other ∈ m.keys,
        valueAt measure (m.insert key value) other = valueAt measure m other := by
      intro other member
      have apart : other ≠ key := by
        rintro rfl
        exact absent member
      rw [valueAt, lookup_insert_eq, if_neg apart, valueAt]
    rw [Finset.sum_congr rfl others, sub_zero, add_comm, total]

theorem valueAt_le_total {measure : V → Int} {m : Map K V} {key : K} {value : V}
    (found : m.lookup key = some value)
    (nonnegative : ∀ other v, m.lookup other = some v → 0 ≤ measure v) :
    measure value ≤ total measure m := by
  have value_eq : valueAt measure m key = measure value := valueAt_of_found found
  rw [← value_eq]
  apply Finset.single_le_sum (f := valueAt measure m)
  · intro other _
    cases at_other : m.lookup other with
    | none => simp [at_other]
    | some v => simpa [at_other] using nonnegative other v at_other
  · exact mem_keys_of_found found

/-- The bindings of a map, in any order. -/
structure Lists (entries : List (K × V)) (m : Map K V) : Prop where
  nodup : (entries.map Prod.fst).Nodup
  mem_iff : ∀ key value, (key, value) ∈ entries ↔ m.lookup key = some value

theorem Lists.singleton (key : K) (value : V) : Lists [(key, value)] (Finmap.insert key value ∅) := by
  refine ⟨by simp, fun other v => ?_⟩
  rw [lookup_insert_eq]
  by_cases same : other = key
  · simp [same, eq_comm]
  · simp [same]

theorem exists_lists (m : Map K V) : ∃ entries, Lists entries m := by
  have found : ∀ key ∈ m.keys.toList, (m.lookup key).isSome := by
    intro key member
    rw [← mem_keys_iff]
    exact Finset.mem_toList.mp member
  refine ⟨m.keys.toList.filterMap fun key => (m.lookup key).map fun value => (key, value), ?_, ?_⟩
  next =>
    have keys : ∀ listed : List K, (∀ key ∈ listed, (m.lookup key).isSome) →
        (listed.filterMap fun key => (m.lookup key).map fun value => (key, value)).map Prod.fst = listed := by
      intro listed all
      induction listed with
      | nil => rfl
      | cons key rest ih =>
        rw [List.forall_mem_cons] at all
        obtain ⟨value, here⟩ := Option.isSome_iff_exists.mp all.1
        simp [here, ih all.2]
    rw [keys _ found]
    exact m.keys.nodup_toList
  next =>
    intro key value
    simp only [List.mem_filterMap, Option.map_eq_some_iff, Prod.mk.injEq]
    constructor
    · rintro ⟨_, _, _, here, rfl, rfl⟩
      exact here
    · intro here
      have member : key ∈ m.keys := mem_keys_of_found here
      exact ⟨key, Finset.mem_toList.mpr member, value, here, rfl, rfl⟩

theorem Lists.length_eq {entries : List (K × V)} {m : Map K V} (lists : Lists entries m) :
    entries.length = m.keys.card := by
  have keys : m.keys = (entries.map Prod.fst).toFinset := by
    ext key
    rw [mem_keys_iff, Option.isSome_iff_exists, List.mem_toFinset, List.mem_map]
    constructor
    · rintro ⟨value, found⟩
      exact ⟨(key, value), (lists.mem_iff key value).mpr found, rfl⟩
    · rintro ⟨⟨_, value⟩, member, rfl⟩
      exact ⟨value, (lists.mem_iff _ value).mp member⟩
  rw [keys, List.toFinset_card_of_nodup lists.nodup, List.length_map]

theorem lookup_eraseEach (entries : List (K × V)) (m : Map K V) (key : K) :
    (entries.foldl (fun m entry => m.erase entry.1) m).lookup key =
      if key ∈ entries.map Prod.fst then none else m.lookup key := by
  induction entries generalizing m with
  | nil => simp
  | cons entry rest ih =>
    rw [List.foldl_cons, ih, lookup_erase_eq]
    simp only [List.map_cons, List.mem_cons]
    by_cases here : key = entry.1
    next => simp [here]
    next => simp only [here, false_or, if_false]

theorem keys_eraseEach (entries : List (K × V)) (m : Map K V) :
    (entries.foldl (fun m entry => m.erase entry.1) m).keys = m.keys \ (entries.map Prod.fst).toFinset := by
  ext key
  rw [mem_keys_iff, lookup_eraseEach, Finset.mem_sdiff, List.mem_toFinset, mem_keys_iff]
  split <;> simp [*]

def insertAll (m : Map K V) (entries : List (K × V)) : Map K V :=
  entries.foldl (fun m entry => m.insert entry.1 entry.2) m

theorem lookup_insertAll_of_absent {entries : List (K × V)} {key : K}
    (absent : key ∉ entries.map Prod.fst) (m : Map K V) :
    (insertAll m entries).lookup key = m.lookup key := by
  induction entries generalizing m with
  | nil => rfl
  | cons entry rest ih =>
    rw [List.map_cons, List.mem_cons, not_or] at absent
    refine (ih absent.2 (m.insert entry.1 entry.2)).trans ?_
    rw [lookup_insert_eq, if_neg absent.1]

theorem lookup_insertAll_of_mem {entries : List (K × V)} {key : K} {value : V}
    (nodup : (entries.map Prod.fst).Nodup) (member : (key, value) ∈ entries) (m : Map K V) :
    (insertAll m entries).lookup key = some value := by
  induction entries generalizing m with
  | nil => cases member
  | cons entry rest ih =>
    rw [List.map_cons, List.nodup_cons] at nodup
    rcases List.mem_cons.mp member with rfl | later
    · refine (lookup_insertAll_of_absent nodup.1 _).trans ?_
      rw [lookup_insert_eq, if_pos rfl]
    · exact ih nodup.2 later _

theorem Lists.insertAll {entries : List (K × V)} (nodup : (entries.map Prod.fst).Nodup) :
    Lists entries (FiniteMap.insertAll ∅ entries) := by
  refine ⟨nodup, fun key value => ⟨fun member => lookup_insertAll_of_mem nodup member ∅, fun found => ?_⟩⟩
  by_cases listed : key ∈ entries.map Prod.fst
  · obtain ⟨⟨_, v⟩, member, rfl⟩ := List.mem_map.mp listed
    rw [lookup_insertAll_of_mem nodup member ∅] at found
    rw [← Option.some.inj found]
    exact member
  · rw [lookup_insertAll_of_absent listed] at found
    simp at found

-- A map has one listing in the order of its keys.
theorem Lists.eq_of_ordered {m : Map K V} {first second : List (K × V)} (one : Lists first m)
    (two : Lists second m) (rank : K × V → Nat)
    (sorted : first.Pairwise fun a b => rank a < rank b)
    (ordered : second.Pairwise fun a b => rank a ≤ rank b) : first = second := by
  have same : ∀ entry, entry ∈ first ↔ entry ∈ second := by
    rintro ⟨key, value⟩
    rw [one.mem_iff, two.mem_iff]
  have perm : first.Perm second :=
    (List.perm_ext_iff_of_nodup (List.Nodup.of_map _ one.nodup) (List.Nodup.of_map _ two.nodup)).mpr same
  have ranks : (first.map rank).Nodup := List.pairwise_map.mpr (sorted.imp Nat.ne_of_lt)
  apply perm.eq_of_pairwise _ (sorted.imp Nat.le_of_lt) ordered
  intro a b at_a at_b below above
  exact List.inj_on_of_nodup_map ranks at_a ((same b).mpr at_b) (le_antisymm below above)

end FiniteMap
