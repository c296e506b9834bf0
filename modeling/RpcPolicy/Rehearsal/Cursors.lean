import RpcPolicy.Backoff.Cursor
/-! Backoff cursors driven by commands. -/

namespace RpcPolicy.Cursors

/-- A command for a cursor. -/
inductive Command where
  /-- Takes a number of steps. -/
  | step (times : Nat)
  | next
  /-- Takes up to a number of delays. -/
  | take (count : Nat)
  | reset
  | look
  /-- Adds a copy of the cursor behind the others. -/
  | clone
deriving DecidableEq

/-- What a command gives. -/
inductive Result where
  | nothing
  | step (last : Option BackoffStep)
  | delay (delay : Option Duration)
  | delays (delays : List Duration)
deriving DecidableEq

/-- The result of a command and the cursor behind it. -/
structure Reading where
  result : Result
  cursor : Cursor

/-- Gives a command to one cursor. -/
def obey (c : Cursor) : Command → Result × Cursor
  | .step times => let (last, c) := c.steps times; (.step last, c)
  | .next => let (delay, c) := c.next; (.delay delay, c)
  | .take count => let (delays, c) := c.take count; (.delays delays, c)
  | .reset => (.nothing, c.reset)
  | .look | .clone => (.nothing, c)

/-- Gives commands to cursors by their places; a command for no cursor is passed over. -/
def run : List Cursor → List (Nat × Command) → List Reading
  | _, [] => []
  | cursors, (place, command) :: rest =>
    match cursors[place]? with
    | none => run cursors rest
    | some c =>
      let (result, c) := obey c command
      let copies := if command = .clone then [c] else []
      ⟨result, c⟩ :: run (cursors.set place c ++ copies) rest

end RpcPolicy.Cursors
