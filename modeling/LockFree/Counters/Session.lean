/-
# Sessions with counters

A session works on a host through names: regions, managers, recorders and
positions each have names of their own. Where a step makes an object under a
name that is taken, the new object replaces the old one, which is dropped
after the new one was made; where the step fails, the old object stays.
Dropping a position closes it.
-/
import LockFree.Counters.Host

namespace LockFree.Counters

/-- What kind of region stands under a name. -/
inductive RegionKind
  | buffer
  | mapping (path : String)
  | window
  deriving DecidableEq, Repr

/-- A region under a name. -/
structure NamedRegion where
  region : Region
  kind : RegionKind
  deriving DecidableEq, Repr

/-- A host, and what the names stand for. -/
structure Session where
  host : Host := {}
  regions : Names NamedRegion := {}
  managers : Names Nat := {}
  recorders : Names Nat := {}
  positions : Names Nat := {}

namespace Session

/-- What a session can be asked to do; `target` names a new object. -/
inductive Step
  | writeFile (path : String) (bytes : List UInt8)
  | appendFile (path : String) (bytes : List UInt8)
  | makeDirectory (path : String)
  | removeFile (path : String)
  | fileSize (path : String)
  | fileWords (path : String)
  | buffer (target : String) (capacity : UInt64)
  | createMapping (target path : String) (length : UInt64)
  | openMapping (target path : String)
  | window (target region : String) (skew capacity : UInt64)
  | dropRegion (region : String)
  | flush (region : String)
  | boundsCheck (region : String) (offset length : UInt64)
  | regionInfo (region : String)
  | recorder (target : String)
  | returnedIds (recorder : String)
  | sleep (milliseconds : Nat)
  | manager (target region : String) (settings : Settings)
  | dropManager (manager : String)
  | allocate (manager label : String)
  | free (manager : String) (id : SlotId)
  | state (manager : String) (id : SlotId)
  | label (manager : String) (id : SlotId)
  | value (manager : String) (id : SlotId)
  | allocatedCount (manager : String)
  | managerInfo (manager : String)
  | snapshot (manager : String)
  | owner (target manager : String) (id : SlotId)
  | reader (target manager : String) (id : SlotId)
  | position (target region : String) (id : SlotId)
  /-- The reclaimer is a recorder of that name or else a manager of it. -/
  | positionWith (target region : String) (id : SlotId) (reclaimer : String)
  | get (position : String) (tier : ReadTier)
  /-- All tiers one after another. -/
  | getAll (position : String)
  | set (position : String) (tier : WriteTier) (v : Int64)
  | propose (position : String) (tier : ProposalTier) (v : Int64)
  | close (position : String)
  | dropPosition (position : String)
  | positionInfo (position : String)
  deriving Repr

/-- What a session answers. -/
inductive Answer
  | done
  | accepted
  | failed (f : Failure)
  | region (capacity : UInt64)
  | regionInfo (capacity : UInt64) (record : Option Text.Record) (path : Option String)
  | slot (id : SlotId)
  | ids (ids : List SlotId)
  | count (n : Nat)
  | size (n : Option Nat)
  | words (ws : Option (List (Nat × Int64)))
  | state (s : Option SlotState)
  | label (l : Option String)
  | value (v : Int64)
  | values (vs : List Int64)
  | flag (b : Bool)
  | managerInfo (maxCounters capacity : UInt64) (record : Text.Record)
  /-- State, label and value of each slot. -/
  | snapshot (slots : List (Option SlotState × Option String × Except Failure Int64))
  | position (id : SlotId) (owns : Bool)
  | positionInfo (id : SlotId) (closed owns : Bool) (display : String) (record : Text.Record)

variable (s : Session)

/-- The answer to a failed operation, or else what `f` makes of its result. -/
def answer (o : Host.Outcome) (f : Host.Result → Session → Answer × Session) : Answer × Session :=
  match o.1 with
  | .error e => (.failed e, { s with host := o.2 })
  | .ok r => f r { s with host := o.2 }

/-- An operation of which only the success counts. -/
def perform (op : Host.Op) : Answer × Session :=
  s.answer (s.host.step op) fun _ s => (.done, s)

/-- The step names an object that does not exist. -/
def noSuch : Answer × Session := (.failed .noSuch, s)

/-- A region made by an operation gets its name. -/
def bindRegion (target : String) (kind : RegionKind) (o : Host.Outcome) : Answer × Session :=
  s.answer o fun
    | .region r, s => (.region r.capacity, { s with regions := s.regions.bind target ⟨r, kind⟩ })
    | _, s => (.done, s)

/-- The position of a name is dropped, if there is one. -/
def dropPositionOf (name : String) : Session :=
  match s.positions.find? name with
  | none => s
  | some k => { s with host := (s.host.step (.close k)).2, positions := s.positions.erase name }

/-- A position made by an operation gets its name, and the one that had the
name is dropped. -/
def bindPosition (target : String) (o : Host.Outcome) : Answer × Session :=
  s.answer o fun
    | .made k, s =>
      let s := s.dropPositionOf target
      let s := { s with positions := s.positions.bind target k }
      match s.host.positions[k]? with
      | some p => (.position p.id p.owns, s)
      | none => (.done, s)
    | _, s => (.done, s)

/-- An answer about the region of a name. -/
def withRegion (name : String) (f : NamedRegion → Answer × Session) : Answer × Session :=
  match s.regions.find? name with
  | some r => f r
  | none => s.noSuch

/-- An answer about the manager of a name. -/
def withManager (name : String) (f : Nat → Manager → Answer × Session) : Answer × Session :=
  match s.managers.find? name with
  | none => s.noSuch
  | some k =>
    match s.host.managers[k]? with
    | some m => f k m
    | none => s.noSuch

/-- An answer about the position of a name. -/
def withPosition (name : String) (f : Nat → Position → Answer × Session) : Answer × Session :=
  match s.positions.find? name with
  | none => s.noSuch
  | some k =>
    match s.host.positions[k]? with
    | some p => f k p
    | none => s.noSuch

/-- The reclaimer of a name. -/
def reclaimer? (name : String) : Option Reclaimer :=
  match s.recorders.find? name with
  | some k => some (.recorder k)
  | none => (s.managers.find? name).map .manager

/-- State, label and value of every slot of manager `k`. -/
def snapshotOf (k : Nat) (m : Manager) : Answer :=
  .snapshot <| (List.range m.maxCounters.toNat).map fun i =>
    let id := Int32.ofNat i
    (m.state? id, m.label? id, s.host.slotValue k id)

/-- What is known of a region. -/
def describe (r : NamedRegion) : Answer :=
  let capacity := r.region.capacity
  match r.kind with
  | .buffer => .regionInfo capacity (some (Host.bufferRecord capacity)) none
  | .mapping path => .regionInfo capacity (some (Host.mappingRecord path capacity)) (some path)
  | .window => .regionInfo capacity none none

/-- The read tiers in the order in which `getAll` goes through them. -/
def allReadTiers : List ReadTier := [.plain, .opaqueRead, .acquire, .volatile]

/-- One step. -/
def step : Step → Answer × Session
  | .writeFile path bytes => s.perform (.writeFile path bytes)
  | .appendFile path bytes => s.perform (.appendFile path bytes)
  | .makeDirectory path => s.perform (.makeDirectory path)
  | .removeFile path => s.perform (.removeFile path)
  | .fileSize path => (.size ((s.host.file? path).map Backing.size), s)
  | .fileWords path => (.words ((s.host.file? path).map Backing.nonzeroWords), s)
  | .buffer target capacity => s.bindRegion target .buffer (s.host.step (.makeBuffer capacity))
  | .createMapping target path length =>
    s.bindRegion target (.mapping path) (s.host.step (.createMapping path length))
  | .openMapping target path =>
    s.bindRegion target (.mapping path) (s.host.step (.openMapping path))
  | .window target region skew capacity =>
    s.withRegion region fun r =>
      let w := r.region.window skew capacity
      (.region w.capacity, { s with regions := s.regions.bind target ⟨w, .window⟩ })
  | .dropRegion region =>
    s.withRegion region fun _ => (.done, { s with regions := s.regions.erase region })
  | .flush region => s.withRegion region fun _ => (.done, s)
  | .boundsCheck region offset length =>
    s.withRegion region fun r =>
      match r.region.boundsCheck offset length with
      | .ok () => (.accepted, s)
      | .error e => (.failed (.error e), s)
  | .regionInfo region => s.withRegion region fun r => (describe r, s)
  | .recorder target =>
    s.answer (s.host.step .addRecorder) fun
      | .made k, s => (.done, { s with recorders := s.recorders.bind target k })
      | _, s => (.done, s)
  | .returnedIds recorder =>
    match s.recorders.find? recorder with
    | none => s.noSuch
    | some k => (.ids (s.host.recorders.getD k []), s)
  | .sleep milliseconds => s.perform (.wait (Duration.ofMilliseconds milliseconds).nanoseconds)
  | .manager target region settings =>
    s.withRegion region fun r =>
      s.answer (s.host.step (.manage r.region settings)) fun
        | .made k, s => (.done, { s with managers := s.managers.bind target k })
        | _, s => (.done, s)
  | .dropManager manager =>
    s.withManager manager fun _ _ => (.done, { s with managers := s.managers.erase manager })
  | .allocate manager label =>
    s.withManager manager fun k _ =>
      s.answer (s.host.step (.allocate k label)) fun
        | .slot id, s => (.slot id, s)
        | _, s => (.done, s)
  | .free manager id => s.withManager manager fun k _ => s.perform (.free k id)
  | .state manager id => s.withManager manager fun _ m => (.state (m.state? id), s)
  | .label manager id => s.withManager manager fun _ m => (.label (m.label? id), s)
  | .value manager id =>
    s.withManager manager fun k _ =>
      match s.host.slotValue k id with
      | .ok v => (.value v, s)
      | .error f => (.failed f, s)
  | .allocatedCount manager => s.withManager manager fun _ m => (.count m.allocatedCount, s)
  | .managerInfo manager =>
    s.withManager manager fun _ m =>
      (.managerInfo m.maxCounters m.region.capacity m.record, s)
  | .snapshot manager => s.withManager manager fun k m => (s.snapshotOf k m, s)
  | .owner target manager id =>
    s.withManager manager fun k _ => s.bindPosition target (s.host.step (.own k id))
  | .reader target manager id =>
    s.withManager manager fun k _ => s.bindPosition target (s.host.step (.watch k id))
  | .position target region id =>
    s.withRegion region fun r => s.bindPosition target (s.host.step (.place r.region id none))
  | .positionWith target region id reclaimer =>
    s.withRegion region fun r =>
      match s.reclaimer? reclaimer with
      | none => s.noSuch
      | some c => s.bindPosition target (s.host.step (.place r.region id (some c)))
  | .get position tier =>
    s.withPosition position fun _ p => (.value (p.read s.host.memory tier), s)
  | .getAll position =>
    s.withPosition position fun _ p => (.values (allReadTiers.map (p.read s.host.memory)), s)
  | .set position tier v => s.withPosition position fun k _ => s.perform (.write k tier v)
  | .propose position tier v =>
    s.withPosition position fun k _ =>
      s.answer (s.host.step (.propose k tier v)) fun
        | .moved b, s => (.flag b, s)
        | _, s => (.done, s)
  | .close position => s.withPosition position fun k _ => s.perform (.close k)
  | .dropPosition position =>
    s.withPosition position fun _ _ => (.done, s.dropPositionOf position)
  | .positionInfo position =>
    s.withPosition position fun _ p =>
      (.positionInfo p.id p.closed p.owns (p.display s.host.memory) (p.record s.host.memory), s)

/-- Steps one after another: each one's answer, and the events during it. -/
def run (s : Session) : List Step → List (Answer × List Event)
  | [] => []
  | step :: rest =>
    let (a, t) := s.step step
    (a, t.host.events.drop s.host.events.length) :: run t rest

end Session
end LockFree.Counters
