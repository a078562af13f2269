import SchemaLoom.Collection.Keyed

/-!
# Buffers and frozen maps

A buffer is changed in place.  Frozen maps are not changed any more: one more entry makes another
map, and the map it was made from stays as it was.
-/

namespace SchemaLoom.Keyed

/-- A call on the buffer or on the frozen maps. -/
inductive Operation (κ ν : Type) where
  | insert (key : κ) (value : ν)
  | remove (key : κ)
  /-- The buffer starts over with some entries. -/
  | refill (entries : List (κ × ν))
  /-- The buffer becomes a frozen map, and a new buffer is empty. -/
  | freeze
  /-- A frozen map of some entries. -/
  | collect (entries : List (κ × ν))
  /-- A frozen map with one more entry than the one at the position. -/
  | extend (position : Nat) (key : κ) (value : ν)

/-- A buffer, and all maps that were frozen in their order; the first is empty. -/
structure Session (κ ν : Type) where
  buffer : List (κ × ν) := []
  maps : List (List (κ × ν)) := [[]]

namespace Session

variable {κ ν : Type}

/-- The map that was frozen last. -/
def newest (session : Session κ ν) : List (κ × ν) :=
  session.maps.getLast?.getD []

/-- Carry out a call; also the value that an insertion replaced or a removal took out. -/
def step (alike : κ → κ → Bool) (session : Session κ ν) :
    Operation κ ν → Option ν × Session κ ν
  | .insert key value =>
    let (replaced, buffer) := put alike key value session.buffer
    (replaced, { session with buffer })
  | .remove key =>
    let (removed, buffer) := take alike key session.buffer
    (removed, { session with buffer })
  | .refill entries => (none, { session with buffer := ofList alike entries })
  | .freeze => (none, ⟨[], session.maps ++ [session.buffer]⟩)
  | .collect entries =>
    (none, { session with maps := session.maps ++ [ofList alike entries] })
  | .extend position key value =>
    match session.maps[position]? with
    | some map =>
      (none, { session with maps := session.maps ++ [inserted alike map key value] })
    | none => (none, session)

/-- The session after some calls. -/
def run (alike : κ → κ → Bool) (session : Session κ ν) (operations : List (Operation κ ν)) :
    Session κ ν :=
  operations.foldl (fun session operation => (session.step alike operation).2) session

end Session

end SchemaLoom.Keyed
