import WorkerPool.Code

/-!
# Layers around the work

A layer stands between a worker and its work. A stack of layers is composed by `compose`, the first
of them outermost: it sees each call first and each result last. A layer of the client's own is a
program that may call what it surrounds, any number of times, one call after another. An `ErrorLimit`
counts the errors that a worker meets in a row, and retires it when there are too many.
-/

namespace WorkerPool

/-- What the code of a client's layer may ask for. -/
inductive LayerRequest (C : Client) where
  /-- A request of client code. -/
  | client (request : ClientRequest C)
  /-- Call what the layer surrounds; the answer is the result. -/
  | inner

/-- The answer to a request of a layer. -/
def LayerRequest.Answer {C : Client} : LayerRequest C → Type
  | client request => request.Answer
  | inner => PoolResult Unit

/-- What the code of a client's layer may ask for, and what it is told. -/
def Client.layerInterface (C : Client) : Interface where
  Request := LayerRequest C
  Answer := LayerRequest.Answer

/-- Code of a client's layer for one call. It runs what it surrounds to its end each time that it asks for it,
and is told the result. So there are things that such code cannot do: it cannot give up what it surrounds before
that has ended, it cannot run it beside itself or twice at once, and it cannot catch its panics, which go on outwards
through the layer. -/
abbrev LayerAct (C : Client) := Program C.layerInterface (PoolResult Unit)

/-- Retires a worker that fails more than `threshold` times in a row. Layers of one name share their
counts. The threshold and the counts are natural numbers: no count goes more than one above the threshold, so that
for a threshold below `UInt32.size - 1` they are what words of 32 bits hold. -/
structure ErrorLimit where
  name : String
  threshold : Nat
deriving DecidableEq, Repr

namespace ErrorLimit

/-- Whether an error counts: nothing to do does not, and neither does a shutdown signal beneath any
wrapping. -/
def counts (error : PoolError) : Bool :=
  !error.isNoWork && !error.innermost.isShutdownSignal

variable {C : Client}

/-- What becomes of the result of one call for a worker. -/
def observe (limit : ErrorLimit) (worker : String) : PoolResult Unit → Code C (PoolResult Unit)
  | .ok () => do
    let _ ← Code.tally limit.name worker fun _ => 0
    return .ok ()
  | .error e => do
    if counts e then
      let count := (← Code.tally limit.name worker (· + 1)) + 1
      if limit.threshold < count then
        Code.log .warn "🔨 Too many consecutive errors, retiring worker" [
          ("worker", .text worker),
          ("consecutive_errors", .number count),
          ("threshold", .number limit.threshold),
          ("error", .text e.message)]
        let _ ← Code.tally limit.name worker fun _ => 0
        return .error (.workerShutdown
          (toString count ++ " consecutive errors, last: " ++ e.message))
      else
        return .error e
    else
      return .error e

end ErrorLimit

/-- A layer around the work of a worker. -/
inductive Layer (C : Client) where
  /-- A layer of the client's own, as far as a `LayerAct` can express it: one that neither drops the call that it
  surrounds before its end, nor runs it concurrently, nor catches a panic of it. -/
  | client (code : (worker : String) → LayerAct C)
  /-- A limit on consecutive errors. -/
  | errorLimit (limit : ErrorLimit)

namespace Layer

variable {C : Client}

/-- What a request of a layer around `inner` stands for. -/
def respond (inner : Code C (PoolResult Unit)) :
    (request : LayerRequest C) → Code C request.Answer
  | .client request => .ask (I := C.poolInterface) (.client request) .done
  | .inner => inner

/-- The layer's code around `inner`. -/
def around (code : LayerAct C) (inner : Code C (PoolResult Unit)) : Code C (PoolResult Unit) :=
  Program.interpret (J := C.poolInterface) (respond inner) code

/-- Put a layer around work. -/
def wrap : Layer C → Work C → Work C
  | client code, next => fun worker => around (code worker) (next worker)
  | errorLimit limit, next => fun worker => do
    limit.observe worker (← next worker)

/-- Put layers around work, the first of them outermost. -/
def compose (layers : List (Layer C)) (base : Work C) : Work C :=
  layers.foldr wrap base

/-- Two stacks of layers, one around the other, are one stack. -/
theorem compose_append (outer inner : List (Layer C)) (base : Work C) :
    compose (outer ++ inner) base = compose outer (compose inner base) :=
  List.foldr_append

end Layer

end WorkerPool
