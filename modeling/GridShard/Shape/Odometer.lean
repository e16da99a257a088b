import GridShard.Shape.Basic

namespace GridShard

/-- The counter stands at `current`; it is finished once the outermost axis has wrapped, and from
the start if the box is empty. -/
structure Odometer where
  shape : Shape
  current : Coords
  finished : Bool

namespace Odometer

def start (s : Shape) : Odometer where
  shape := s
  current := s.map (fun _ => 0)
  finished := s.any (· == 0)

/-- Adds one to the last index. An index that reaches its extent goes back to zero and carries
outwards; the flag is the carry out of the first axis. -/
def increment : Shape → Coords → Coords × Bool
  | extent :: s, i :: c =>
    match increment s c with
    | (c, false) => (i :: c, false)
    | (c, true) => if i + 1 < extent then ((i + 1) :: c, false) else (0 :: c, true)
  | _, c => (c, true)

def step (o : Odometer) : Bool × Odometer :=
  match increment o.shape o.current with
  | (c, false) => (true, { o with current := c })
  | (c, true) => (false, { o with current := c, finished := true })

def next (o : Odometer) : Option Coords × Odometer :=
  if o.finished then (none, o) else (some o.current, o.step.2)

def collect : Nat → Odometer → Array Coords → Array Coords
  | 0, _, seen => seen
  | n + 1, o, seen =>
    match o.next with
    | (none, _) => seen
    | (some c, o) => collect n o (seen.push c)

end Odometer

def Shape.coordinates (s : Shape) : Array Coords :=
  Odometer.collect s.volume (Odometer.start s) #[]

end GridShard
