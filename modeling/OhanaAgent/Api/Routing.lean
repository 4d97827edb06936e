import OhanaAgent.Api.Listeners

/-!
# What the tables route

A path that two templates match forces them to agree segment by segment, so the
disjointness of two tables is a computation on their templates.  The handler of a
route knows where its call carries the identity: the number of the parameters of
the template is the position of what comes after them.
-/

namespace OhanaAgent.Api

open OhanaAgent.Encoding.Json (Text Value Fields)

/-! ## Matching -/

/-- The number of parameters of a template. -/
def parameterCount (pattern : List Segment) : Nat :=
  pattern.countP fun segment => match segment with
    | .literal _ => false
    | .parameter _ => true

/-- Some part of a path fits both segments; a word may end in the line feed that
`$` allows. -/
def Segment.overlaps : Segment → Segment → Bool
  | literal first, literal second =>
      first = second || first = second ++ ['\n'] || first ++ ['\n'] = second
  | _, _ => true

/-- Some path fits both templates. -/
def overlaps : List Segment → List Segment → Bool
  | [], [] => true
  | first :: pattern, second :: other => first.overlaps second && overlaps pattern other
  | _, _ => false

theorem accept_parameter {last : Bool} {part : Text} {segment : Segment} {found : Parameters}
    (accepted : segment.accept last part = some found) :
    found.length = parameterCount [segment] := by
  unfold Segment.accept at accepted
  cases segment with
  | literal word =>
      dsimp only at accepted
      split at accepted
      · cases accepted
        rfl
      · contradiction
  | parameter name =>
      dsimp only at accepted
      split at accepted
      · contradiction
      · cases accepted
        rfl

theorem matchSegments_cons {segment : Segment} {pattern : List Segment} {part : Text}
    {parts : List Text} {found : Parameters} :
    matchSegments (segment :: pattern) (part :: parts) = some found ↔
      ∃ first rest, segment.accept parts.isEmpty part = some first ∧
        matchSegments pattern parts = some rest ∧ first ++ rest = found := by
  rw [matchSegments]
  cases segment.accept parts.isEmpty part with
  | none => simp
  | some first =>
      cases matchSegments pattern parts with
      | none => simp
      | some rest => simp

/-- A match gives one value to each parameter. -/
theorem length_of_match {pattern : List Segment} {parts : List Text} {found : Parameters}
    (matched : matchSegments pattern parts = some found) :
    found.length = parameterCount pattern := by
  induction pattern generalizing parts found with
  | nil =>
      cases parts with
      | nil =>
          cases matched
          rfl
      | cons part parts => contradiction
  | cons segment pattern inductionHypothesis =>
      cases parts with
      | nil => contradiction
      | cons part parts =>
          rcases matchSegments_cons.mp matched with ⟨first, rest, accepted, others, rfl⟩
          have split : parameterCount ([segment] ++ pattern) =
              parameterCount [segment] + parameterCount pattern := List.countP_append
          rw [List.length_append, accept_parameter accepted, inductionHypothesis others, ← split]
          rfl

theorem Segment.overlaps_of_accept {first second : Segment} {last : Bool} {part : Text}
    {found other : Parameters} (left : first.accept last part = some found)
    (right : second.accept last part = some other) : first.overlaps second = true := by
  cases first with
  | parameter name => rfl
  | literal word =>
      cases second with
      | parameter name => rfl
      | literal otherWord =>
          unfold Segment.accept at left right
          dsimp only at left right
          split at left
          · rename_i fits
            split at right
            · rename_i otherFits
              simp only [Segment.overlaps, Bool.or_eq_true, decide_eq_true_eq]
              rcases fits with rfl | ⟨_, rfl⟩
              · rcases otherFits with rfl | ⟨_, rfl⟩
                · exact Or.inl (Or.inl rfl)
                · exact Or.inl (Or.inr rfl)
              · rcases otherFits with rfl | ⟨_, same⟩
                · exact Or.inr rfl
                · exact Or.inl (Or.inl (List.append_cancel_right same))
            · contradiction
          · contradiction

/-- Two templates that match one path overlap. -/
theorem overlaps_of_match {pattern other : List Segment} {parts : List Text}
    {found rest : Parameters} (left : matchSegments pattern parts = some found)
    (right : matchSegments other parts = some rest) : overlaps pattern other = true := by
  induction pattern generalizing other parts found rest with
  | nil =>
      cases parts with
      | nil =>
          cases other with
          | nil => rfl
          | cons segment other => contradiction
      | cons part parts => contradiction
  | cons segment pattern inductionHypothesis =>
      cases parts with
      | nil => contradiction
      | cons part parts =>
          cases other with
          | nil => contradiction
          | cons otherSegment other =>
              rcases matchSegments_cons.mp left with ⟨_, _, accepted, others, _⟩
              rcases matchSegments_cons.mp right with ⟨_, _, otherAccepted, otherOthers, _⟩
              rw [overlaps, Bool.and_eq_true]
              constructor
              · exact Segment.overlaps_of_accept accepted otherAccepted
              · exact inductionHypothesis others otherOthers

/-- No path fits both a worker route and a `POST` route of the administration. -/
theorem workerRoutes_apart {worker administration : Route} (early : worker ∈ workerRoutes)
    (guarded : administration ∈ administrationPost) {path : Text}
    (matched : (administration.parameters path).isSome = true) :
    worker.parameters path = none := by
  have apart : ∀ worker ∈ workerRoutes, ∀ administration ∈ administrationPost,
      overlaps worker.pattern administration.pattern = false := by
    -- the letters of each template are read once
    unfold workerRoutes administrationPost route
    repeat rw [String.toList_ofList]
    decide +kernel
  cases found : worker.parameters path with
  | none => rfl
  | some parameters =>
      rcases Option.isSome_iff_exists.mp matched with ⟨other, otherFound⟩
      have both := overlaps_of_match found otherFound
      rw [apart worker early administration guarded] at both
      exact absurd both Bool.false_ne_true

/-! ## What the routes call -/

/-- The methods of the worker routes. -/
def workerMethods : List ServiceMethod := [
  .receiveBackupArtifact, .createWorkerPairing, .pollWorkerPairing, .registerWorker,
  .reportWorkerRuntimes, .reportWorkerPower, .claimJob, .nextWorkerJob, .heartbeatJob,
  .completeJob]

/-- The methods of the worker listener that need no credential. -/
def openWorkerMethods : List ServiceMethod := [
  .readWorkerTrust, .createWorkerPairing, .pollWorkerPairing]

/-- The methods of the companion listener that need no credential; its trust
document calls none. -/
def openCompanionMethods : List ServiceMethod := [
  .createCompanionPairing, .pollCompanionPairing]

/-- The method that a handler calls. -/
def Handler.method : Handler → Option ServiceMethod
  | call method _ => some method
  | callWithBody method => some method
  | workerCallWithBody method => some method
  | companionCallWithBody method => some method
  | registerWorker => some .registerWorker
  | readSource method => some method
  | uploadBackupArtifact => some .receiveBackupArtifact
  | downloadBackupSource => some .openBackupSource
  | companionTrust => none
  | companionDiagnosis => some .requestCompanionDiagnosis
  | respondCompanionRequest => some .respondCompanionRequest

/-- The handler authorizes a worker. -/
def Handler.authorizes : Handler → Bool
  | workerCallWithBody _ => true
  | registerWorker => true
  | readSource _ => true
  | uploadBackupArtifact => true
  | downloadBackupSource => true
  | _ => false

/-- The route calls an open method, or its handler authorizes the worker that the
method acts for. -/
def Route.actsForWorker (route : Route) : Bool :=
  match route.handler with
  | .call method _ => method ∈ openWorkerMethods
  | .callWithBody method => method ∈ openWorkerMethods
  | .workerCallWithBody method =>
      method.workerPlace = some (.document (parameterCount route.pattern))
  | .readSource method => method.workerPlace = some (.argument 1)
  | .registerWorker => true
  | .uploadBackupArtifact => true
  | .downloadBackupSource => true
  | _ => false

/-- The handler passes the authorized device where the method expects one. -/
def Route.actsForDevice (route : Route) : Bool :=
  match route.handler with
  | .call method _ => method.devicePlace = none
  | .companionCallWithBody method => method.devicePlace = some (parameterCount route.pattern)
  | .companionDiagnosis => parameterCount route.pattern = 1
  | .respondCompanionRequest => parameterCount route.pattern = 1
  | _ => false

theorem workerRoutes_methods :
    ∀ route ∈ workerRoutes, ∀ method ∈ route.handler.method, method ∈ workerMethods := by
  decide

theorem administrationRoutes_plain :
    ∀ route ∈ administrationGet ++ administrationPut ++ administrationPost,
      route.handler.authorizes = false := by
  decide

theorem workerRoutes_act : ∀ route ∈ workerRoutes ++ workerGet, route.actsForWorker = true := by
  decide +kernel

theorem companionRoutes_open :
    ∀ route ∈ companionOpenGet ++ companionOpenPost, route.handler.authorizes = false ∧
      ∀ method ∈ route.handler.method, method ∈ openCompanionMethods := by
  decide

theorem companionRoutes_act :
    ∀ route ∈ companionGet ++ companionPost, route.handler.authorizes = false ∧
      route.actsForDevice = true := by
  decide +kernel

end OhanaAgent.Api
