import Peg.Tree.Action

/-!
How a computation ends: with a value, cut off by an action, with its contract
broken, or not within the depth it was given.
-/
namespace Peg

/-- The end of a computation. `breach` says that some parser was handed back a
text that is no end of its input; `unfinished` that rules called each other
deeper than any input of this length allows. -/
inductive Outcome (α : Type) where
  | done (value : α)
  | fault (cause : Fault)
  | breach
  | unfinished
  deriving DecidableEq

namespace Outcome

variable {α β : Type}

def bind : Outcome α → (α → Outcome β) → Outcome β
  | done value, next => next value
  | fault cause, _ => fault cause
  | breach, _ => breach
  | unfinished, _ => unfinished

instance : Monad Outcome where
  pure := done
  bind := bind

@[simp] theorem pure_eq (value : α) : (pure value : Outcome α) = done value := rfl

@[simp] theorem done_bind (value : α) (next : α → Outcome β) :
    (done value >>= next) = next value := rfl

@[simp] theorem fault_bind (cause : Fault) (next : α → Outcome β) :
    (fault cause >>= next) = fault cause := rfl

@[simp] theorem breach_bind (next : α → Outcome β) : (breach >>= next) = breach := rfl

@[simp] theorem unfinished_bind (next : α → Outcome β) :
    (unfinished >>= next) = unfinished := rfl

instance : LawfulMonad Outcome :=
  LawfulMonad.mk' Outcome (fun x => by cases x <;> rfl) (fun _ _ => rfl)
    (fun x _ _ => by cases x <;> rfl)

end Outcome
end Peg
