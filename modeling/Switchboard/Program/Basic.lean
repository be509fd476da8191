import Switchboard.Outcome

/-!
# Programs

The code a user of this library supplies – handlers, filters,
interceptors, matchers – is not a Lean function from states to states but
a **program**: a finite tree that either is done with a value, panics, or
makes a call and goes on with the reply. What calls there are and what
they reply is the `Signature` of the program, so a filter, which must not
wait, and an interceptor, which can proceed with its chain, are programs
of different signatures.

Keeping code as data has two uses. Code that waits can be set aside in
the middle and resumed later, which is all that cooperative scheduling
needs. And a statement about every behaviour of some code is a statement
about every tree, proved by induction on it.

`Program.recover` turns a panic into a value. `Program.interpret` replaces
every call by a program of another signature.
-/

namespace Switchboard

/-- The calls a program can make, and the type of the reply to each. -/
structure Signature where
  Call : Type
  Reply : Call → Type

/-- A program that ends in an `α`, panics, or makes a call and goes on
with the reply. -/
inductive Program (S : Signature) (α : Type) where
  | done (a : α)
  | panic (p : Payload)
  | call (c : S.Call) (next : S.Reply c → Program S α)

namespace Program

variable {S T : Signature} {α β γ : Type}

/-- One program after another. -/
def bind : Program S α → (α → Program S β) → Program S β
  | done a, f => f a
  | panic p, _ => panic p
  | call c next, f => call c fun r => (next r).bind f

instance : Monad (Program S) where
  pure := done
  bind := bind

/-- The program that makes one call and is done with the reply. -/
def perform (c : S.Call) : Program S (S.Reply c) := call c done

/-- **A program that ends in a panic is done with its payload instead.** -/
def recover : Program S α → Program S (Except Payload α)
  | done a => done (.ok a)
  | panic p => done (.error p)
  | call c next => call c fun r => (next r).recover

/-- Ends as another program did, be it with a value or in a panic. -/
def ofExcept : Except Payload α → Program S α
  | .ok a => done a
  | .error p => panic p

/-- **Replaces every call by a program of another signature.** -/
def interpret (f : (c : S.Call) → Program T (S.Reply c)) : Program S α → Program T α
  | done a => done a
  | panic p => panic p
  | call c next => (f c).bind fun r => (next r).interpret f

@[simp] theorem done_bind (a : α) (f : α → Program S β) : (done a).bind f = f a := rfl

@[simp] theorem panic_bind (p : Payload) (f : α → Program S β) :
    (panic p : Program S α).bind f = panic p := rfl

@[simp] theorem call_bind (c : S.Call) (next : S.Reply c → Program S α) (f : α → Program S β) :
    (call c next).bind f = call c fun r => (next r).bind f := rfl

@[simp] theorem pure_eq (a : α) : (pure a : Program S α) = done a := rfl

@[simp] theorem bind_eq (m : Program S α) (f : α → Program S β) : (m >>= f) = m.bind f := rfl

@[simp] theorem bind_done (m : Program S α) : m.bind done = m := by
  induction m with
  | done a => rfl
  | panic p => rfl
  | call c next ih => simp [ih]

theorem bind_assoc (m : Program S α) (f : α → Program S β) (g : β → Program S γ) :
    (m.bind f).bind g = m.bind fun a => (f a).bind g := by
  induction m with
  | done a => rfl
  | panic p => rfl
  | call c next ih => simp [ih]

@[simp] theorem recover_done (a : α) : (done a : Program S α).recover = done (.ok a) := rfl

@[simp] theorem recover_panic (p : Payload) :
    (panic p : Program S α).recover = done (.error p) := rfl

/-- Recovering from a sequence recovers from its parts. -/
theorem recover_bind (m : Program S α) (f : α → Program S β) :
    (m.bind f).recover =
      m.recover.bind fun
        | .ok a => (f a).recover
        | .error p => done (.error p) := by
  induction m with
  | done a => rfl
  | panic p => rfl
  | call c next ih => simp [recover, ih]

/-- What follows a recovered program is recovered by itself. -/
theorem recover_recover_bind (m : Program S α) (f : Except Payload α → Program S β) :
    (m.recover.bind f).recover = m.recover.bind fun r => (f r).recover := by
  induction m with
  | done a => rfl
  | panic p => rfl
  | call c next ih => simp [recover, ih]

/-- A sequence is one after recovering, in which a panic goes on. -/
theorem bind_eq_recover_bind (m : Program S α) (f : α → Program S β) :
    m.bind f = m.recover.bind fun
      | .ok a => f a
      | .error p => panic p := by
  induction m with
  | done a => rfl
  | panic p => rfl
  | call c next ih => simp [recover, ih]

/-- Recovering and ending alike changes nothing. -/
theorem recover_bind_ofExcept (m : Program S α) : m.recover.bind ofExcept = m := by
  induction m with
  | done a => rfl
  | panic p => rfl
  | call c next ih => simp [recover, ih]

theorem interpret_bind (f : (c : S.Call) → Program T (S.Reply c)) (m : Program S α)
    (g : α → Program S β) :
    (m.bind g).interpret f = (m.interpret f).bind fun a => (g a).interpret f := by
  induction m with
  | done a => rfl
  | panic p => rfl
  | call c next ih => simp [interpret, ih, bind_assoc]

end Program

end Switchboard
