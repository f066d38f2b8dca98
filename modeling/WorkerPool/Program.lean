import WorkerPool.Duration
import WorkerPool.Error

/-!
# Programs that can be suspended

Everything a worker runs is a `Program`: it may ask its surroundings for something and go on with the
answer, wait, panic, or be done. A program is finite along every sequence of answers, so what holds
of programs is shown by induction over them; only a worker's loop, which strings programs together,
goes on without end.

What a program may ask for is an `Interface`. Code that users bring has a small interface, and
`Program.interpret` runs it inside the larger one of the pool by replacing each request with a
program. `Program.guarded` is the boundary at which a panic turns into a value. Programs over one
interface form a lawful monad, and interpreting respects its operations.
-/

namespace WorkerPool

/-- What a program may ask for, and what it is told. -/
structure Interface where
  Request : Type
  Answer : Request → Type

/-- Why a wait ended. -/
inductive Wake where
  | elapsed
  | cancelled
deriving DecidableEq, Repr

/-- How a piece of code ended. -/
inductive Outcome (α : Type) where
  | ok (value : α)
  | error (error : PoolError)
  | panic (panic : Panic)

/-- A computation that asks, waits, panics or is done. A wait of zero milliseconds is no wait, and none
is longer than `longestWait`; one that heeds cancellation ends as soon as the token is cancelled. -/
inductive Program (I : Interface) (α : Type) where
  | done (value : α)
  | panic (panic : Panic)
  | ask (request : I.Request) (next : I.Answer request → Program I α)
  | wait (ms : Nat) (heedsCancel : Bool) (next : Wake → Program I α)

namespace Program

variable {I J : Interface} {α β γ : Type}

/-- Run `next` on the value of a program. -/
def bind : Program I α → (α → Program I β) → Program I β
  | done value, next => next value
  | panic p, _ => panic p
  | ask request rest, next => ask request fun answer => (rest answer).bind next
  | wait ms heeds rest, next => wait ms heeds fun wake => (rest wake).bind next

instance : Monad (Program I) where
  pure := done
  bind := bind

/-- To go on by returning is to do no more. -/
theorem bind_done (p : Program I α) : p.bind done = p := by
  induction p with
  | done _ => rfl
  | panic _ => rfl
  | ask request rest ih => exact congrArg (ask request) (funext ih)
  | wait ms heeds rest ih => exact congrArg (wait ms heeds) (funext ih)

/-- It makes no difference where the rest of a program is divided into parts. -/
theorem bind_assoc (p : Program I α) (f : α → Program I β) (g : β → Program I γ) :
    (p.bind f).bind g = p.bind fun value => (f value).bind g := by
  induction p with
  | done _ => rfl
  | panic _ => rfl
  | ask request rest ih => exact congrArg (ask request) (funext ih)
  | wait ms heeds rest ih => exact congrArg (wait ms heeds) (funext ih)

instance : LawfulMonad (Program I) :=
  LawfulMonad.mk' (Program I) (fun p => bind_done p) (fun _ _ => rfl) (fun p f g => bind_assoc p f g)

/-- Ask and hand back the answer. -/
def request (r : I.Request) : Program I (I.Answer r) :=
  ask r done

/-- Wait for that long, whatever happens. -/
def sleep (ms : Nat) : Program I Unit :=
  wait ms false fun _ => done ()

/-- Wait for that long, or until the token is cancelled. -/
def sleepUnlessCancelled (ms : Nat) : Program I Wake :=
  wait ms true done

/-- The boundary that catches panics: an outcome as a value. -/
def guarded : Program I (PoolResult α) → Program I (Outcome α)
  | done (.ok value) => done (.ok value)
  | done (.error e) => done (.error e)
  | panic p => done (.panic p)
  | ask request rest => ask request fun answer => (rest answer).guarded
  | wait ms heeds rest => wait ms heeds fun wake => (rest wake).guarded

/-- The program that ends with a given outcome. -/
def ofOutcome : Outcome α → Program I (PoolResult α)
  | .ok value => done (.ok value)
  | .error e => done (.error e)
  | .panic p => panic p

/-- The program over another interface in which `respond` stands for each request. -/
def interpret (respond : (r : I.Request) → Program J (I.Answer r)) : Program I α → Program J α
  | done value => done value
  | panic p => panic p
  | ask request rest => (respond request).bind fun answer => (rest answer).interpret respond
  | wait ms heeds rest => wait ms heeds fun wake => (rest wake).interpret respond

/-- Containing what has ended already keeps how it ended. -/
@[simp] theorem guarded_ofOutcome (o : Outcome α) :
    (ofOutcome o : Program I (PoolResult α)).guarded = done o := by
  cases o <;> rfl

/-- A program is interpreted part by part. -/
theorem interpret_bind (respond : (r : I.Request) → Program J (I.Answer r)) (p : Program I α)
    (f : α → Program I β) :
    (p.bind f).interpret respond = (p.interpret respond).bind fun a => (f a).interpret respond := by
  induction p with
  | done _ => rfl
  | panic _ => rfl
  | ask request rest ih =>
    simp only [bind, interpret, bind_assoc]
    exact congrArg _ (funext ih)
  | wait ms heeds rest ih => exact congrArg (wait ms heeds) (funext ih)

end Program

end WorkerPool
