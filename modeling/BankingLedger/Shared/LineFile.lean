import BankingLedger.Shared.Delimited

set_option autoImplicit false

namespace LineFile

variable {A : Type}

section Cut

variable (nl : A)

def lines (bodies : List (List A)) : List A := bodies.flatMap fun body => body ++ [nl]

variable {nl}

@[simp] theorem lines_nil : lines nl [] = [] := rfl

@[simp] theorem lines_cons (body : List A) (rest : List (List A)) :
    lines nl (body :: rest) = body ++ nl :: lines nl rest := by simp [lines]

@[simp] theorem lines_append (first second : List (List A)) :
    lines nl (first ++ second) = lines nl first ++ lines nl second := by simp [lines]

-- The lines that fit whole into the first `k` places, and what is left of the next one.
def fitting : List (List A) → Nat → Nat
  | [], _ => 0
  | body :: rest, k => if body.length < k then fitting rest (k - (body.length + 1)) + 1 else 0

def torn : List (List A) → Nat → List A
  | [], _ => []
  | body :: rest, k => if body.length < k then torn rest (k - (body.length + 1)) else body.take k

theorem take_lines (bodies : List (List A)) (k : Nat) :
    (lines nl bodies).take k = lines nl (bodies.take (fitting bodies k)) ++ torn bodies k := by
  induction bodies generalizing k with
  | nil => simp [fitting, torn]
  | cons body rest ih =>
    simp only [fitting, torn, lines_cons]
    by_cases fits : body.length < k
    · obtain ⟨more, rfl⟩ : ∃ more, k = body.length + (more + 1) := ⟨k - (body.length + 1), by omega⟩
      have less : body.length + (more + 1) - (body.length + 1) = more := by omega
      rw [if_pos fits, if_pos fits, less, List.take_length_add_append, List.take_succ_cons, ih,
        List.take_succ_cons, lines_cons, List.append_assoc, List.cons_append]
    · rw [if_neg fits, if_neg fits, List.take_zero, lines_nil, List.nil_append,
        List.take_append_of_le_length (by omega)]

theorem torn_prefix (bodies : List (List A)) (k : Nat) :
    torn bodies k = [] ∨ ∃ body ∈ bodies, torn bodies k <+: body := by
  induction bodies generalizing k with
  | nil => exact .inl rfl
  | cons body rest ih =>
    rw [torn]
    split
    · exact (ih _).imp_right fun ⟨b, member, start⟩ => ⟨b, List.mem_cons_of_mem _ member, start⟩
    · exact .inr ⟨body, List.mem_cons_self, List.take_prefix _ _⟩

end Cut

section Pieces

variable [DecidableEq A] {nl : A}

variable (nl) in
/-- What a reader of lines gets one after another; the last piece may have no end of line. -/
def pieces : List A → List (List A)
  | [] => []
  | a :: rest =>
    if a = nl then [a] :: pieces rest
    else
      match pieces rest with
      | [] => [[a]]
      | first :: others => (a :: first) :: others

theorem pieces_line {body : List A} (plain : nl ∉ body) (rest : List A) :
    pieces nl (body ++ nl :: rest) = (body ++ [nl]) :: pieces nl rest := by
  induction body with
  | nil => simp [pieces]
  | cons a body ih =>
    obtain ⟨here, later⟩ := List.ne_and_not_mem_of_not_mem_cons plain
    rw [List.cons_append, pieces, if_neg (Ne.symm here), ih later]
    rfl

theorem pieces_of_plain {tail : List A} (plain : nl ∉ tail) (nonempty : tail ≠ []) :
    pieces nl tail = [tail] := by
  induction tail with
  | nil => exact absurd rfl nonempty
  | cons a rest ih =>
    obtain ⟨here, later⟩ := List.ne_and_not_mem_of_not_mem_cons plain
    rw [pieces, if_neg (Ne.symm here)]
    cases rest with
    | nil => rfl
    | cons b rest => rw [ih later (by simp)]

theorem pieces_lines {bodies : List (List A)} (plain : ∀ body ∈ bodies, nl ∉ body) (rest : List A) :
    pieces nl (lines nl bodies ++ rest) = bodies.map (· ++ [nl]) ++ pieces nl rest := by
  induction bodies with
  | nil => rfl
  | cons body others ih =>
    obtain ⟨first, later⟩ := List.forall_mem_cons.mp plain
    rw [lines_cons, List.append_assoc, List.cons_append, pieces_line first, ih later]
    rfl

end Pieces

end LineFile
