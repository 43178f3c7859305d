/-
Running calls against the services that they need.

The services are effects of any monad. `Task.run` takes one call to its
end. `Context.runTogether` runs several calls in turns: a call goes on
until it has to wait for a fingerprint or for a lock that another holds,
and the fingerprint is there at its next turn. Rounds of turns are made as
long as they bring some call on.
-/
import PropertyGraphQL.Result.Row
import PropertyGraphQL.Service.Context

namespace PropertyGraphQL

/-- What is needed from outside. -/
structure Services (m : Type → Type) where
  /-- The time in milliseconds. -/
  clock : m Nat
  /-- What a call waits for. The lock is up to whoever runs the calls and
  has no effect here. -/
  answer : (need : Need) → m need.Answer
  /-- Run a statement with parameters. -/
  execute : String → Dict Json → m (Except DatabaseError (List Row))

variable {m : Type → Type} [Monad m]

/-- Begin a call. -/
def Context.begin (services : Services m) (settings : ContextSettings) (c : Context)
    (call : Call) : m (Context × Task) := do
  return c.start settings (← services.clock) call

namespace Task

/-- Take a call to its end while no other is under way. -/
def run (services : Services m) (settings : ContextSettings) (c : Context) :
    Task → m (Context × Outcome)
  | finished outcome => pure (c, outcome)
  | waiting p => do
      let answer ← services.answer p.need
      let now ← services.clock
      have := Context.rank_resume_lt settings now c p answer
      run services settings (c.resume settings now p answer).1 (c.resume settings now p answer).2
termination_by task => task.rank

end Task

/-- Run a call while no other is under way. -/
def Context.run (services : Services m) (settings : ContextSettings) (c : Context)
    (call : Call) : m (Context × Outcome) := do
  let (c, task) ← c.begin services settings call
  task.run services settings c

-- =============================================================== turns

namespace Need

/-- Whether a call that waits for this loses its turn. -/
def endsTurn (c : Context) : Need → Bool
  | lock => c.locked
  | fingerprint => true
  | _ => false

end Need

namespace Task

/-- Go on with a call until it loses its turn. -/
def advance (services : Services m) (settings : ContextSettings) (c : Context) :
    Task → m (Context × Task)
  | finished outcome => pure (c, finished outcome)
  | waiting p =>
      if p.need.endsTurn c then pure (c, waiting p)
      else do
        let answer ← services.answer p.need
        let now ← services.clock
        have := Context.rank_resume_lt settings now c p answer
        advance services settings (c.resume settings now p answer).1
          (c.resume settings now p answer).2
termination_by task => task.rank

/-- A turn of a call: what it waited for is there, unless that is a lock. -/
def turn (services : Services m) (settings : ContextSettings) (c : Context) :
    Task → m (Context × Task)
  | finished outcome => pure (c, finished outcome)
  | waiting p =>
      if p.need = .lock then advance services settings c (waiting p)
      else do
        let answer ← services.answer p.need
        let now ← services.clock
        let (c, task) := c.resume settings now p answer
        task.advance services settings c

/-- A turn of every call. -/
def turns (services : Services m) (settings : ContextSettings) (c : Context) :
    List Task → m (Context × List Task)
  | [] => pure (c, [])
  | task :: rest => do
      let (c, task) ← task.turn services settings c
      let (c, rest) ← turns services settings c rest
      return (c, task :: rest)

/-- The number of steps that calls take at most. -/
def totalRank : List Task → Nat
  | [] => 0
  | task :: rest => task.rank + totalRank rest

/-- Rounds of turns, as long as they bring some call on. -/
def rounds (services : Services m) (settings : ContextSettings) (c : Context)
    (tasks : List Task) : m (Context × List Task) := do
  let (c, after) ← turns services settings c tasks
  if totalRank after < totalRank tasks then rounds services settings c after
  else return (c, after)
termination_by totalRank tasks

end Task

namespace Context

/-- Begin calls one after the other, each going on until it loses its turn. -/
def launch (services : Services m) (settings : ContextSettings) (c : Context) :
    List Call → m (Context × List Task)
  | [] => pure (c, [])
  | call :: rest => do
      let (c, task) ← c.begin services settings call
      let (c, task) ← task.advance services settings c
      let (c, rest) ← launch services settings c rest
      return (c, task :: rest)

/-- Run calls at the same time. -/
def runTogether (services : Services m) (settings : ContextSettings) (c : Context)
    (calls : List Call) : m (Context × List Task) := do
  let (c, tasks) ← c.launch services settings calls
  Task.rounds services settings c tasks

end Context

end PropertyGraphQL
