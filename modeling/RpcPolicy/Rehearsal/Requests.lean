import RpcPolicy.Call.World
/-! A request changed by commands on a clock of its own. -/

namespace RpcPolicy.Requests

/-- A command for a request or its clock. -/
inductive Command where
  /-- Sets the deadline a length of time after now. -/
  | timeout (length : Duration)
  /-- Sets the deadline a length of time after the start. -/
  | deadline (length : Duration)
  | advance (length : Duration)
  /-- Replaces all metadata. -/
  | metadata (metadata : Metadata)
  | append (pairs : List (MetadataName × MetadataValue))
  | insert (pairs : List (MetadataName × MetadataValue))
  /-- Cancels a copy of the request. -/
  | cancelCopy
  /-- Gives the request a signal that no copy shares. -/
  | freshToken

/-- A request and the clock behind a command. -/
structure Reading where
  request : Request
  now : Instant
  canceled : Bool

/-- Obeys a command; a deadline past the last instant makes it fail. -/
def obey (r : Request) (w : World) : Command → Option (Request × World)
  | .timeout length => (r.withTimeout? w.clock length).map (·, w)
  | .deadline length => (r.withTimeout? .start length).map (·, w)
  | .advance length => some (r, { w with clock := w.clock.after length })
  | .metadata metadata => some ({ r with metadata }, w)
  | .append pairs =>
    some ({ r with metadata := pairs.foldl (fun m p => m.append p.1 p.2) r.metadata }, w)
  | .insert pairs =>
    some ({ r with metadata := pairs.foldl (fun m p => m.insert p.1 p.2) r.metadata }, w)
  | .cancelCopy => some (r, w.cancel r.token)
  | .freshToken => some ({ r with token := r.token + 1 }, w)

/-- Obeys commands in order, if none of them fails. -/
def run? : Request → World → List Command → Option (List Reading)
  | _, _, [] => some []
  | r, w, command :: rest => do
    let (r, w) ← obey r w command
    let readings ← run? r w rest
    return ⟨r, w.clock, w.isCanceled r.token⟩ :: readings

end RpcPolicy.Requests
