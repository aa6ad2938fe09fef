import PulseDaq.Board.Json
import PulseDaq.Json.Time

/-!
# Retrying board calls

A call that failed transiently is tried again after a delay; each delay is a multiple of the one
before it. Any other error stands.

* `RetryPolicy.delay`: the delays of a policy.
* `RetryPolicy.attempt`: a call with its retries.
-/

namespace PulseDaq

open Json (Value Fields)

/-- How often and how patiently to retry. The defaults sleep 1 ms, 10 ms and 100 ms. -/
structure RetryPolicy where
  retries : UInt32 := 3
  initialDelay : Duration := .ofMilliseconds 1
  /-- What the delay is multiplied by after every retry. -/
  factor : UInt32 := 10
  deriving DecidableEq, Repr, Inhabited

namespace RetryPolicy

/-- Never retry. -/
def never : RetryPolicy where
  retries := 0

/-- The delay that follows `d`. -/
def nextDelay (p : RetryPolicy) (d : Duration) : Duration :=
  d.scale p.factor.toNat

/-- So many delays, from `d` on. -/
def delaysFrom (p : RetryPolicy) (d : Duration) : (count : Nat) → List Duration
  | 0 => []
  | count + 1 => d :: p.delaysFrom (p.nextDelay d) count

/-- The first delays, at most `count` and at most as many as there are retries. -/
def delays (p : RetryPolicy) (count : Nat) : List Duration :=
  p.delaysFrom p.initialDelay (min count p.retries.toNat)

variable {σ α : Type}

/-- Call, and as long as the call fails transiently, `sleep` and call again, up to `left` times. -/
def attemptFrom (p : RetryPolicy) (sleep : Duration → EStateM BoardError σ Unit)
    (call : EStateM BoardError σ α) (delay : Duration) : (left : Nat) → EStateM BoardError σ α
  | 0 => fun s =>
    match call s with
    | .error e s => .error (if e.isTransient then .exhausted p.retries e else e) s
    | done => done
  | left + 1 => fun s =>
    match call s with
    | .error e s =>
      if e.isTransient then
        (do
          sleep delay
          p.attemptFrom sleep call (p.nextDelay delay) left : EStateM BoardError σ α) s
      else
        .error e s
    | done => done

/-- Call with retries, sleeping by `sleep` before each of them. -/
def attempt (p : RetryPolicy) (sleep : Duration → EStateM BoardError σ Unit)
    (call : EStateM BoardError σ α) : EStateM BoardError σ α :=
  p.attemptFrom sleep call p.initialDelay p.retries.toNat

def toJson (p : RetryPolicy) : Value :=
  .object [("retries", .nat p.retries.toNat), ("initial_delay", p.initialDelay.toJson),
    ("factor", .nat p.factor.toNat)]

/-- What is not given has its default. -/
def ofJson? (v : Value) : Option RetryPolicy := do
  let f ← Fields.ofValue? ["retries", "initial_delay", "factor"] v
  let standard : RetryPolicy := {}
  let retries ← f.withDefault "retries" standard.retries Json.uint32?
  let initialDelay ← f.withDefault "initial_delay" standard.initialDelay Duration.ofJson?
  let factor ← f.withDefault "factor" standard.factor Json.uint32?
  some { retries, initialDelay, factor }

instance : Json.Codec RetryPolicy where
  toJson := toJson
  ofJson? := ofJson?

end RetryPolicy

end PulseDaq
