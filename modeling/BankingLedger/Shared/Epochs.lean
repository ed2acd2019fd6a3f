import Mathlib.Data.List.DropRight
import Mathlib.Tactic.Common

set_option autoImplicit false

namespace Epochs

variable {E V : Type}

def epoch (restarts : E → Bool) (past : List E) : List E := past.rtakeWhile fun e => !restarts e

@[simp] theorem epoch_nil (restarts : E → Bool) : epoch restarts [] = [] := rfl

theorem epoch_concat (restarts : E → Bool) (past : List E) (e : E) :
    epoch restarts (past ++ [e]) = if restarts e then [] else epoch restarts past ++ [e] := by
  by_cases restart : restarts e <;> simp [epoch, restart]

def count (restarts counted : E → Bool) (past : List E) : Nat := (epoch restarts past).countP counted

@[simp] theorem count_nil (restarts counted : E → Bool) : count restarts counted [] = 0 := rfl

theorem count_concat (restarts counted : E → Bool) (past : List E) (e : E) :
    count restarts counted (past ++ [e]) =
      if restarts e then 0 else count restarts counted past + if counted e then 1 else 0 := by
  rw [count, epoch_concat]
  split
  next => rfl
  next => rw [List.countP_append, List.countP_singleton, count]

def streak (restarts : E → Bool) (past : List E) : Nat := (epoch restarts past).length

@[simp] theorem streak_nil (restarts : E → Bool) : streak restarts [] = 0 := rfl

theorem streak_concat (restarts : E → Bool) (past : List E) (e : E) :
    streak restarts (past ++ [e]) = if restarts e then 0 else streak restarts past + 1 := by
  rw [streak, epoch_concat]
  split <;> simp [streak]

def judged (judge : List E → E → Option V) : List E → List E → List V
  | _, [] => []
  | past, e :: rest => (judge past e).toList ++ judged judge (past ++ [e]) rest

theorem judged_concat (judge : List E → E → Option V) (past events : List E) (e : E) :
    judged judge past (events ++ [e]) = judged judge past events ++ (judge (past ++ events) e).toList := by
  induction events generalizing past with
  | nil => simp [judged]
  | cons first rest ih => simp only [List.cons_append, judged, ih, List.append_assoc, List.nil_append]

end Epochs
