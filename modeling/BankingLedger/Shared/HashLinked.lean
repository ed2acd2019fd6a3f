import Mathlib.Data.List.Induction
import Mathlib.Tactic.Common

set_option autoImplicit false

namespace HashLinked

structure Scheme (B H : Type) where
  hash : B → H
  previous : B → H
  digest : H → B → H
  reseal : H → B → B
  hash_reseal : ∀ p b, hash (reseal p b) = digest p b
  previous_reseal : ∀ p b, previous (reseal p b) = p
  digest_reseal : ∀ p q b, digest p (reseal q b) = digest p b

namespace Scheme

variable {B H : Type} (s : Scheme B H)

def Linked : H → List B → Prop
  | _, [] => True
  | p, b :: rest => s.previous b = p ∧ Linked (s.hash b) rest

-- Every hash is the content's over the hash of the block before, whatever the block says it was.
def Hashed : H → List B → Prop
  | _, [] => True
  | p, b :: rest => s.digest p b = s.hash b ∧ Hashed (s.hash b) rest

def Chained (p : H) (blocks : List B) : Prop := s.Linked p blocks ∧ s.Hashed p blocks

def Sealed (b : B) : Prop := s.digest (s.previous b) b = s.hash b

def tip (p : H) (blocks : List B) : H := blocks.foldl (fun _ b => s.hash b) p

def resealAll : H → List B → List B
  | _, [] => []
  | p, b :: rest => s.reseal p b :: resealAll (s.digest p b) rest

variable {s}

theorem tip_concat (p : H) (blocks : List B) (b : B) : s.tip p (blocks ++ [b]) = s.hash b := by
  simp [tip]

theorem tip_eq_getLast (p : H) {blocks : List B} (nonempty : blocks ≠ []) :
    s.tip p blocks = s.hash (blocks.getLast nonempty) := by
  conv_lhs => rw [← List.dropLast_concat_getLast nonempty]
  exact tip_concat ..

theorem linked_append {p : H} {first second : List B} :
    s.Linked p (first ++ second) ↔ s.Linked p first ∧ s.Linked (s.tip p first) second := by
  induction first generalizing p with
  | nil => simp [Linked, tip]
  | cons b rest ih =>
    simp only [List.cons_append, Linked, ih, and_assoc]
    rfl

theorem linked_cons_iff_zip {p : H} {b : B} {rest : List B} :
    s.Linked p (b :: rest) ↔
      s.previous b = p ∧ ∀ pair ∈ (b :: rest).zip rest, s.previous pair.2 = s.hash pair.1 := by
  induction rest generalizing p b with
  | nil => simp [Linked]
  | cons c rest ih =>
    rw [Linked, ih, List.zip_cons_cons, List.forall_mem_cons]

theorem previous_eq_of_linked {p : H} {blocks : List B} {i : Nat} {a b : B} (linked : s.Linked p blocks)
    (before : blocks[i]? = some a) (here : blocks[i + 1]? = some b) : s.previous b = s.hash a := by
  induction blocks generalizing p i with
  | nil => simp at here
  | cons c rest ih =>
    rw [List.getElem?_cons_succ] at here
    cases i with
    | zero =>
      obtain rfl := Option.some.inj before
      cases rest with
      | nil => simp at here
      | cons d others =>
        obtain rfl := Option.some.inj here
        exact linked.2.1
    | succ i => exact ih linked.2 (by simpa using before) here

theorem previous_of_linked {Q : H → Prop} {p : H} {blocks : List B} (linked : s.Linked p blocks)
    (start : Q p) (hashes : ∀ b ∈ blocks, Q (s.hash b)) : ∀ b ∈ blocks, Q (s.previous b) := by
  induction blocks generalizing p with
  | nil => simp
  | cons b rest ih =>
    rw [List.forall_mem_cons] at hashes ⊢
    obtain ⟨previous, later⟩ := linked
    exact ⟨previous ▸ start, ih later hashes.1 hashes.2⟩

theorem hashed_append {p : H} {first second : List B} :
    s.Hashed p (first ++ second) ↔ s.Hashed p first ∧ s.Hashed (s.tip p first) second := by
  induction first generalizing p with
  | nil => simp [Hashed, tip]
  | cons b rest ih =>
    simp only [List.cons_append, Hashed, ih, and_assoc]
    rfl

theorem chained_append {p : H} {first second : List B} :
    s.Chained p (first ++ second) ↔ s.Chained p first ∧ s.Chained (s.tip p first) second := by
  simp only [Chained, linked_append, hashed_append]
  tauto

theorem chained_iff_sealed {p : H} {blocks : List B} :
    s.Chained p blocks ↔ s.Linked p blocks ∧ ∀ b ∈ blocks, s.Sealed b := by
  induction blocks generalizing p with
  | nil => simp [Chained, Linked, Hashed]
  | cons b rest ih =>
    have later := ih (p := s.hash b)
    simp only [Chained] at later
    simp only [Chained, Linked, Hashed, List.forall_mem_cons, Sealed]
    constructor
    · rintro ⟨⟨rfl, linked⟩, digest, hashed⟩
      exact ⟨⟨rfl, linked⟩, digest, (later.mp ⟨linked, hashed⟩).2⟩
    · rintro ⟨⟨rfl, linked⟩, digest, all⟩
      exact ⟨⟨rfl, linked⟩, digest, (later.mpr ⟨linked, all⟩).2⟩

@[simp] theorem length_resealAll (p : H) (blocks : List B) :
    (s.resealAll p blocks).length = blocks.length := by
  induction blocks generalizing p with
  | nil => rfl
  | cons b rest ih => simp [resealAll, ih]

theorem chained_resealAll (p : H) (blocks : List B) : s.Chained p (s.resealAll p blocks) := by
  induction blocks generalizing p with
  | nil => exact ⟨trivial, trivial⟩
  | cons b rest ih =>
    obtain ⟨linked, hashed⟩ := ih (s.digest p b)
    refine ⟨⟨s.previous_reseal p b, ?_⟩, ?_, ?_⟩
    · rw [s.hash_reseal]
      exact linked
    · rw [s.digest_reseal, s.hash_reseal]
    · rw [s.hash_reseal]
      exact hashed

-- `settled` says that a block whose hashes are right is not changed by sealing it again.
theorem resealAll_eq_self_iff
    (settled : ∀ p b, s.previous b = p → s.digest p b = s.hash b → s.reseal p b = b)
    {p : H} {blocks : List B} : s.resealAll p blocks = blocks ↔ s.Chained p blocks := by
  constructor
  · intro same
    rw [← same]
    exact chained_resealAll p blocks
  · induction blocks generalizing p with
    | nil => exact fun _ => rfl
    | cons b rest ih =>
      rintro ⟨⟨previous, linked⟩, digest, hashed⟩
      rw [resealAll, settled p b previous digest, digest, ih ⟨linked, hashed⟩]

theorem resealAll_append (p : H) (first second : List B) :
    s.resealAll p (first ++ second) =
      s.resealAll p first ++ s.resealAll (s.tip p (s.resealAll p first)) second := by
  induction first generalizing p with
  | nil => rfl
  | cons b rest ih =>
    rw [List.cons_append, resealAll, ih, resealAll, List.cons_append, tip, tip, List.foldl_cons,
      s.hash_reseal]

theorem resealAll_mapIdx {f : Nat → B → B}
    (contents : ∀ i p q b, s.reseal p (f i (s.reseal q b)) = s.reseal p (f i b)) (p q : H)
    (blocks : List B) :
    s.resealAll p ((s.resealAll q blocks).mapIdx f) = s.resealAll p (blocks.mapIdx f) := by
  induction blocks generalizing p q f with
  | nil => rfl
  | cons b rest ih =>
    have same := contents 0 p q b
    have digest : s.digest p (f 0 (s.reseal q b)) = s.digest p (f 0 b) := by
      rw [← s.hash_reseal, same, s.hash_reseal]
    simp only [resealAll, List.mapIdx_cons]
    rw [same, digest, ih fun i => contents (i + 1)]

theorem getElem?_resealAll {p : H} {blocks : List B} {j : Nat} {b' : B}
    (found : (s.resealAll p blocks)[j]? = some b') : ∃ b q, blocks[j]? = some b ∧ b' = s.reseal q b := by
  induction blocks generalizing p j with
  | nil => simp [resealAll] at found
  | cons b rest ih =>
    cases j with
    | zero =>
      refine ⟨b, p, rfl, ?_⟩
      simpa [resealAll] using found.symm
    | succ j => exact ih (by simpa [resealAll] using found)

theorem Chained.eq_or_collision_at {P : Type} {image : B → P} {hashOf : P → H} {p : H}
    {first second : List B} (digest : ∀ b, s.digest (s.previous b) b = hashOf (image b))
    (parses : ∀ (i : Nat) (b c : B), first[i]? = some b → second[i]? = some c → image b = image c →
      s.hash b = s.hash c → b = c)
    (one : s.Chained p first) (two : s.Chained p second) (length : first.length = second.length)
    (tips : s.tip p first = s.tip p second) :
    first = second ∨
      ∃ b ∈ first, ∃ c ∈ second, image b ≠ image c ∧ hashOf (image b) = hashOf (image c) := by
  induction first using List.reverseRecOn generalizing second with
  | nil => exact .inl (List.eq_nil_of_length_eq_zero length.symm).symm
  | append_singleton front b ih =>
    obtain ⟨back, c, rfl⟩ : ∃ back c, second = back ++ [c] := by
      rcases List.eq_nil_or_concat second with rfl | split
      · simp at length
      · simpa using split
    have lengths : front.length = back.length := by simpa using length
    rw [chained_append] at one two
    rw [tip_concat, tip_concat] at tips
    have sealedB : hashOf (image b) = s.hash b :=
      (digest b).symm.trans ((chained_iff_sealed.mp one.2).2 b (by simp))
    have sealedC : hashOf (image c) = s.hash c :=
      (digest c).symm.trans ((chained_iff_sealed.mp two.2).2 c (by simp))
    by_cases same : image b = image c
    · obtain rfl : b = c := parses front.length b c (by simp) (by simp [lengths]) same tips
      have before : s.tip p front = s.tip p back := one.2.1.1.symm.trans two.2.1.1
      have earlier : ∀ (i : Nat) (b' c' : B), front[i]? = some b' → back[i]? = some c' → image b' = image c' →
          s.hash b' = s.hash c' → b' = c' := by
        intro i b' c' at_b at_c
        have within := (List.getElem?_eq_some_iff.mp at_b).1
        have within' := (List.getElem?_eq_some_iff.mp at_c).1
        exact parses i b' c' (by rwa [List.getElem?_append_left within])
          (by rwa [List.getElem?_append_left within'])
      rcases ih earlier one.1 two.1 lengths before with rfl | ⟨b', at_b, c', at_c, differ, collide⟩
      · exact .inl rfl
      · exact .inr ⟨b', by simp [at_b], c', by simp [at_c], differ, collide⟩
    · exact .inr ⟨b, by simp, c, by simp, same, by rw [sealedB, sealedC, tips]⟩

theorem Chained.eq_or_collision {P : Type} {image : B → P} {hashOf : P → H} {p : H}
    {first second : List B} (digest : ∀ b, s.digest (s.previous b) b = hashOf (image b))
    (parses : ∀ b ∈ first, ∀ c ∈ second, image b = image c → s.hash b = s.hash c → b = c)
    (one : s.Chained p first) (two : s.Chained p second) (length : first.length = second.length)
    (tips : s.tip p first = s.tip p second) :
    first = second ∨
      ∃ b ∈ first, ∃ c ∈ second, image b ≠ image c ∧ hashOf (image b) = hashOf (image c) :=
  eq_or_collision_at digest
    (fun _ b c at_b at_c => parses b (List.mem_of_getElem? at_b) c (List.mem_of_getElem? at_c))
    one two length tips

theorem resealAll_congr {first second : List B}
    (contents : List.Forall₂ (fun b c => ∀ p, s.reseal p b = s.reseal p c) first second) (p : H) :
    s.resealAll p first = s.resealAll p second := by
  induction contents generalizing p with
  | nil => rfl
  | @cons b c rest rest' same _ ih =>
    have digest : s.digest p b = s.digest p c := by rw [← s.hash_reseal, same, s.hash_reseal]
    rw [resealAll, resealAll, same, digest, ih]

end Scheme

end HashLinked
