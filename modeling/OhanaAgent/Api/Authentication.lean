import OhanaAgent.Api.Handlers
import OhanaAgent.Jobs.Identities

/-!
# Every listener authenticates what it calls

Each listener is followed through its table: the routes before the guard, the
guard, and the routes after it.  What a handler knows when it calls, together with
what the guard has accepted, gives the identity under which the call acts.
-/

namespace OhanaAgent.Api

open OhanaAgent.Encoding (trim trim_eq_self_iff)
open OhanaAgent.Encoding.Json (Text Value Fields)
open OhanaAgent.Host (isContractSpace)
open OhanaAgent.Jobs (isWorkerId)
open OhanaAgent.Privacy (isWhitespace)
open OhanaAgent.Transition
open OhanaAgent.Transition.Program

variable {env : Environment} {S : Type} {behaviour : Behaviour env S} {server : Server}
  {request : Request} {call : Call} {text : String} {past : Past env S}

/-! ## Identities -/

theorem strip_workerId {workerId : Text} (valid : isWorkerId workerId = true) :
    Companions.strip workerId = workerId := by
  have solid : ∀ c ∈ workerId, isContractSpace c = false := by
    intro c member
    have bounds := Jobs.isWorkerId_chars valid c member
    simp only [isContractSpace, isWhitespace, Bool.and_eq_false_iff, Bool.or_eq_false_iff,
      decide_eq_false_iff_not, beq_eq_false_iff_ne]
    omega
  apply trim_eq_self_iff.mpr
  constructor
  · intro c first
    exact solid c (List.mem_of_mem_head? first)
  · intro c last
    exact solid c (List.mem_of_getLast? last)

theorem documentWorker_eq {payload : Fields} {workerId : Text}
    (named : payload.lookup "worker_id".toList = some (.string workerId)) :
    documentWorker payload = some (Companions.strip workerId) := by
  rw [documentWorker, named]

/-- A call acts for a worker whose token the request has presented before, or it
is a registration and the request has presented the token of the previous
identity that the call names. -/
def ActsForPresented (request : Request) (past : Past env S) (invocation : Invocation) : Prop :=
  ∃ workerId token met repository, invocation.worker = some workerId ∧
    request.bearerToken = some token ∧ met.jobRepository = some repository ∧
    (∃ asked previous, ⟨.authorizeWorker asked token previous, met⟩ ∈ past) ∧
    (repository.db.authorizeWorker env.jobs workerId token none = true ∨
      invocation.method = .registerWorker ∧ ∃ previous,
        invocation.arguments[1]? = some (.text previous) ∧
          repository.db.authorizeWorker env.jobs previous token none = true)

/-- A call acts for the device that has been accepted before. -/
def ActsForDevice (behaviour : Behaviour env S) (request : Request) (past : Past env S)
    (invocation : Invocation) : Prop :=
  ∃ deviceId token met, request.bearerToken = some token ∧
    ⟨.authorizeCompanion deviceId token, met⟩ ∈ past ∧
    behaviour.answer (.authorizeCompanion deviceId token) met = true ∧
    ∀ place ∈ invocation.method.devicePlace,
      invocation.arguments[place]? = some (.text deviceId)

/-- What an accepted worker says about the repository that accepted it. -/
theorem WorkerAccepted.presented {workerId token : Text} {previousWorkerId : Option Text}
    (accepted : WorkerAccepted behaviour workerId token previousWorkerId past) :
    ∃ met repository, ⟨.authorizeWorker workerId token previousWorkerId, met⟩ ∈ past ∧
      met.jobRepository = some repository ∧
      (repository.db.authorizeWorker env.jobs workerId token none = true ∧
          Companions.strip workerId = workerId ∨
        ∃ previous ∈ previousWorkerId,
          repository.db.authorizeWorker env.jobs previous token none = true) := by
  rcases accepted with ⟨met, member, answered⟩
  unfold Behaviour.answer at answered
  cases present : met.jobRepository with
  | none => simp [present] at answered
  | some repository =>
      simp only [present] at answered
      refine ⟨met, repository, member, present, ?_⟩
      rcases Jobs.authorizeWorker_cases answered with own | other
      · rcases repository.reached with ⟨calls, reached⟩
        have named : Jobs.Named repository.db := reached ▸ Jobs.named_execute calls
        exact Or.inl ⟨own, strip_workerId (named.authorized own)⟩
      · exact Or.inr other

/-- A call whose worker is the one that the document of an authorization names. -/
theorem PayloadAccepted.acts {payload : Fields} {previousWorkerId : Option Text}
    {invocation : Invocation} (unshared : call.server.workerToken = none)
    (accepted : PayloadAccepted behaviour call payload previousWorkerId past)
    (acts : ∀ workerId, payload.lookup "worker_id".toList = some (.string workerId) →
      invocation.worker = some workerId ∨
        invocation.worker = some (Companions.strip workerId))
    (renames : ∀ previous ∈ previousWorkerId, invocation.method = .registerWorker ∧
      invocation.arguments[1]? = some (.text previous)) :
    ActsForPresented call.request past invocation := by
  rcases accepted unshared with ⟨workerId, token, named, presented, worker⟩
  rcases worker.presented with ⟨met, repository, member, present, own | other⟩
  · have same : invocation.worker = some workerId := by
      rcases acts workerId named with same | stripped
      · exact same
      · rw [stripped, own.2]
    exact ⟨workerId, token, met, repository, same, presented, present, ⟨_, _, member⟩,
      Or.inl own.1⟩
  · rcases other with ⟨previous, given, authorized⟩
    rcases renames previous given with ⟨registers, named'⟩
    rcases acts workerId named with same | stripped
    · exact ⟨workerId, token, met, repository, same, presented, present, ⟨_, _, member⟩,
        Or.inr ⟨registers, previous, named', authorized⟩⟩
    · exact ⟨_, token, met, repository, stripped, presented, present, ⟨_, _, member⟩,
        Or.inr ⟨registers, previous, named', authorized⟩⟩

/-- What a route of the worker listener knows is enough. -/
theorem Knows.acts {route : Route} {parameters : Parameters} {invocation : Invocation}
    (knows : Knows behaviour call parameters past route.handler invocation)
    (wellFormed : route.actsForWorker = true)
    (matched : route.parameters call.request.path = some parameters)
    (unshared : call.server.workerToken = none) :
    invocation.method ∈ openWorkerMethods ∨ ActsForPresented call.request past invocation := by
  have count : parameters.arguments.length = parameterCount route.pattern := by
    rw [Parameters.arguments, List.length_map]
    exact length_of_match matched
  rcases route with ⟨pattern, handler⟩
  unfold Route.actsForWorker at wellFormed
  dsimp only at knows wellFormed count
  cases knows with
  | call => exact Or.inl (by simpa using wellFormed)
  | callWithBody payload => exact Or.inl (by simpa using wellFormed)
  | @workerCallWithBody method payload accepted =>
      right
      apply accepted.acts unshared
      · intro workerId named
        right
        simp only [decide_eq_true_eq] at wellFormed
        simp [Invocation.worker, wellFormed, ← count, documentWorker_eq named]
      · intro previous given
        contradiction
  | companionCallWithBody payload => contradiction
  | @registerWorker payload previousWorkerId accepted =>
      right
      apply accepted.acts unshared
      · intro workerId named
        right
        simp [Invocation.worker, ServiceMethod.workerPlace, documentWorker_eq named]
      · rintro previous given
        obtain rfl : previousWorkerId = some previous := given
        exact ⟨rfl, rfl⟩
  | @readSource method workerId jobId rest accepted =>
      right
      apply accepted.acts unshared
      · intro named same
        left
        simp only [decide_eq_true_eq] at wellFormed
        cases same
        simp [Invocation.worker, wellFormed]
      · intro previous given
        contradiction
  | @uploadBackupArtifact workerId jobId rest accepted =>
      right
      apply accepted.acts unshared
      · intro named same
        left
        cases same
        rfl
      · intro previous given
        contradiction
  | @downloadBackupSource workerId jobId rest accepted =>
      right
      apply accepted.acts unshared
      · intro named same
        left
        cases same
        rfl
      · intro previous given
        contradiction
  | companionDiagnosis incidentId => contradiction
  | respondCompanionRequest requestId payload => contradiction

/-- A route behind the guard of the companions passes the accepted device. -/
theorem Knows.actsForDevice {route : Route} {parameters : Parameters} {invocation : Invocation}
    {deviceId : Text} (knows : Knows behaviour call parameters past route.handler invocation)
    (wellFormed : route.actsForDevice = true)
    (matched : route.parameters call.request.path = some parameters)
    (accepted : call.companionId = some deviceId) :
    ∀ place ∈ invocation.method.devicePlace,
      invocation.arguments[place]? = some (.text deviceId) := by
  have count : parameters.arguments.length = parameterCount route.pattern := by
    rw [Parameters.arguments, List.length_map]
    exact length_of_match matched
  rcases route with ⟨pattern, handler⟩
  unfold Route.actsForDevice at wellFormed
  dsimp only at knows wellFormed count
  intro place member
  cases knows with
  | call =>
      simp only [decide_eq_true_eq] at wellFormed
      rw [wellFormed] at member
      contradiction
  | callWithBody payload => contradiction
  | workerCallWithBody accepted => contradiction
  | companionCallWithBody payload =>
      simp only [decide_eq_true_eq] at wellFormed
      rw [wellFormed] at member
      obtain rfl : parameterCount pattern = place := Option.some.inj member
      simp [← count, accepted, Argument.ofOption]
  | registerWorker accepted => contradiction
  | readSource jobId rest accepted => contradiction
  | uploadBackupArtifact jobId rest accepted => contradiction
  | downloadBackupSource jobId rest accepted => contradiction
  | companionDiagnosis incidentId =>
      obtain rfl : 1 = place := Option.some.inj member
      simp [accepted, Argument.ofOption]
  | respondCompanionRequest requestId payload =>
      obtain rfl : 1 = place := Option.some.inj member
      simp [accepted, Argument.ofOption]

/-! ## Tables -/

/-- One of the routes handles the request, or it goes on to the rest of the
table. -/
theorem consult_cases (env : Environment) (call : Call) (routes : List Route)
    (rest : List Entry) :
    (∃ route ∈ routes, ∃ parameters, route.parameters call.request.path = some parameters ∧
        consult env call (routes.map .route ++ rest) = route.handler.run env call parameters) ∨
      consult env call (routes.map .route ++ rest) = consult env call rest := by
  induction routes with
  | nil => exact Or.inr rfl
  | cons route routes inductionHypothesis =>
      rw [List.map_cons, List.cons_append, consult]
      cases matched : route.parameters call.request.path with
      | some parameters =>
          exact Or.inl ⟨route, List.mem_cons_self, parameters, matched, rfl⟩
      | none =>
          rcases inductionHypothesis with ⟨other, member, found⟩ | passed
          · exact Or.inl ⟨other, List.mem_cons_of_mem route member, found⟩
          · exact Or.inr passed

/-- The first route that matches handles the request. -/
theorem consult_hit {before after : List Route} {route : Route} {parameters : Parameters}
    (misses : ∀ other ∈ before, other.parameters call.request.path = none)
    (hits : route.parameters call.request.path = some parameters) :
    consult env call ((before ++ route :: after).map .route) =
      route.handler.run env call parameters := by
  induction before with
  | nil => rw [List.nil_append, List.map_cons, consult, hits]
  | cons other before inductionHypothesis =>
      rw [List.cons_append, List.map_cons, consult, misses other List.mem_cons_self]
      apply inductionHypothesis
      intro next member
      exact misses next (List.mem_cons_of_mem other member)

variable {permitted : Past env S → Invocation → Prop}

/-- A table ends with the answer 404. -/
theorem traces_notFound :
    Traces behaviour.answer (Permits permitted) (Yields text Admits) (consult env call [])
      past := by
  intro impossible
  exact absurd impossible (by decide)

/-- A handler whose calls are all permitted. -/
theorem traces_permitted {handler : Handler} {parameters : Parameters}
    (refuses : handler.authorizes = true → text = workerRefusal)
    (permits : ∀ later invocation, past <+: later →
      Knows behaviour call parameters later handler invocation → permitted later invocation) :
    Traces behaviour.answer (Permits permitted) (Yields text Admits)
      (handler.run env call parameters) past := by
  have traces : Traces behaviour.answer
      (Permits fun later => Knows behaviour call parameters later handler) (Yields text Admits)
      (handler.run env call parameters) past := traces_handler handler refuses
  apply traces.extends.mono
  · rintro later effect ⟨extended, knows⟩
    cases effect with
    | run invocation => exact permits later invocation extended knows
    | authorizeWorker workerId token previousWorkerId => trivial
    | authorizeCompanion deviceId token => trivial
    | send => trivial
  · intro outcome later ends
    exact ends.2

/-- Routes whose calls are all permitted, up to the end of the table. -/
theorem traces_lastRoutes {routes : List Route}
    (each : ∀ route ∈ routes, ∀ parameters, route.parameters call.request.path = some parameters →
      Traces behaviour.answer (Permits permitted) (Yields text Admits)
        (route.handler.run env call parameters) past) :
    Traces behaviour.answer (Permits permitted) (Yields text Admits)
      (consult env call (routes.map .route)) past := by
  have whole := consult_cases env call routes []
  rw [List.append_nil] at whole
  rcases whole with ⟨route, member, parameters, matched, equal⟩ | equal
  · rw [equal]
    exact each route member parameters matched
  · rw [equal]
    exact traces_notFound

/-! ## The administration listener -/

/-- The text with which `authorize_administration` refuses. -/
def administrationRefusal : String := "A valid administration token is required"

/-- The calls that the administration listener may make. -/
def AdministrationPermits (server : Server) (request : Request) (_ : Past env S)
    (invocation : Invocation) : Prop :=
  invocation.method ∈ workerMethods ∨ request.bearerToken = some server.token

theorem traces_authorizeAdministration :
    Traces behaviour.answer (Permits permitted)
      (Yields administrationRefusal fun next later =>
        next = call ∧ later = past ∧ call.request.bearerToken = some call.server.token)
      call.authorizeAdministration past := by
  unfold Call.authorizeAdministration
  extract_lets rejection
  split
  · exact fun _ => rfl
  · rename_i token presented
    split
    · rename_i failure failed
      exact refuses_compareDigest failure failed
    · exact fun _ => rfl
    · rename_i equal
      refine ⟨rfl, rfl, ?_⟩
      rw [presented, compareDigest_eq_true equal]

/-- Behind the guard every call is permitted. -/
theorem traces_administration {routes : List Route}
    (plain : ∀ route ∈ routes, route.handler.authorizes = false) :
    Traces behaviour.answer (Permits (AdministrationPermits server request))
      (Yields administrationRefusal Admits)
      (consult env ⟨server, request, none⟩ (.guard .administration :: routes.map .route))
      past := by
  apply traces_then traces_authorizeAdministration
  rintro _ _ ⟨rfl, rfl, presented⟩
  apply traces_lastRoutes
  intro route member parameters _
  apply traces_permitted
  · intro authorizes
    rw [plain route member] at authorizes
    contradiction
  · intro later invocation _ _
    exact Or.inr presented

theorem traces_administrationTable {entries : List Entry} (role : server.role = .administration)
    (table : server.role.routes request.method = some entries) :
    ∃ text, Traces behaviour.answer (Permits (AdministrationPermits server request))
      (Yields text Admits) (consult env ⟨server, request, none⟩ entries) [] := by
  rw [role, Role.routes] at table
  split at table
  · cases table
    refine ⟨_, traces_administration fun route member => administrationRoutes_plain route ?_⟩
    exact List.mem_append_left _ (List.mem_append_left _ member)
  · split at table
    · cases table
      refine ⟨_, traces_administration fun route member => administrationRoutes_plain route ?_⟩
      exact List.mem_append_left _ (List.mem_append_right _ member)
    · split at table
      · cases table
        rcases consult_cases env ⟨server, request, none⟩ workerRoutes
          (.guard .administration :: administrationPost.map .route) with
          ⟨route, member, parameters, matched, equal⟩ | equal
        · rw [equal]
          refine ⟨workerRefusal, traces_permitted (fun _ => rfl) ?_⟩
          intro later invocation _ knows
          exact Or.inl (workerRoutes_methods route member _ knows.method)
        · rw [equal]
          refine ⟨_, traces_administration fun route member => administrationRoutes_plain route ?_⟩
          exact List.mem_append_right _ member
      · contradiction

/-! ## The worker listener -/

/-- The calls that the worker listener may make where no token is shared. -/
def WorkerPermits (server : Server) (request : Request) (past : Past env S)
    (invocation : Invocation) : Prop :=
  server.workerToken = none → invocation.method ∈ openWorkerMethods ∨
    ActsForPresented request past invocation

theorem traces_workerTable {entries : List Entry} (role : server.role = .worker)
    (table : server.role.routes request.method = some entries) :
    Traces behaviour.answer (Permits (WorkerPermits server request))
      (Yields workerRefusal Admits) (consult env ⟨server, request, none⟩ entries) [] := by
  have routes : ∃ routes ⊆ workerRoutes ++ workerGet, entries = routes.map .route := by
    rw [role, Role.routes] at table
    split at table
    · cases table
      exact ⟨workerGet, List.subset_append_right _ _, rfl⟩
    · split at table
      · cases table
        exact ⟨[], List.nil_subset _, rfl⟩
      · split at table
        · cases table
          exact ⟨workerRoutes, List.subset_append_left _ _, rfl⟩
        · contradiction
  rcases routes with ⟨routes, known, rfl⟩
  apply traces_lastRoutes
  intro route member parameters matched
  apply traces_permitted (fun _ => rfl)
  intro later invocation _ knows unshared
  exact knows.acts (workerRoutes_act route (known member)) matched unshared

/-! ## The companion listener -/

/-- The text with which `authorize_companion` refuses. -/
def companionRefusal : String := "A valid companion session is required"

/-- The calls that the companion listener may make. -/
def CompanionPermits (behaviour : Behaviour env S) (request : Request) (past : Past env S)
    (invocation : Invocation) : Prop :=
  invocation.method ∈ openCompanionMethods ∨ ActsForDevice behaviour request past invocation

theorem traces_authorizeCompanion :
    Traces behaviour.answer (Permits permitted)
      (Yields companionRefusal fun next later => ∃ deviceId token met,
        next = { call with companionId := some deviceId } ∧
          call.request.bearerToken = some token ∧
          ⟨.authorizeCompanion deviceId token, met⟩ ∈ later ∧
          behaviour.answer (.authorizeCompanion deviceId token) met = true)
      call.authorizeCompanion past := by
  unfold Call.authorizeCompanion
  extract_lets rejection deviceId
  split
  · exact fun _ => rfl
  · rename_i token presented
    split
    · exact fun _ => rfl
    · constructor
      · trivial
      · intro state
        dsimp only [Program.bind]
        split
        · rename_i authorized
          exact ⟨deviceId, token, state, rfl, presented,
            List.mem_append_right _ List.mem_cons_self, authorized⟩
        · exact fun _ => rfl

/-- Behind the guard every call acts for the accepted device. -/
theorem traces_companion {routes : List Route} (known : routes ⊆ companionGet ++ companionPost) :
    Traces behaviour.answer (Permits (CompanionPermits behaviour request))
      (Yields companionRefusal Admits)
      (consult env ⟨server, request, none⟩ (.guard .companion :: routes.map .route)) past := by
  apply traces_then traces_authorizeCompanion
  rintro _ later ⟨deviceId, token, met, rfl, presented, accepted, answered⟩
  apply traces_lastRoutes
  intro route member parameters matched
  rcases companionRoutes_act route (known member) with ⟨plain, wellFormed⟩
  apply traces_permitted
  · intro authorizes
    rw [plain] at authorizes
    contradiction
  · intro last invocation extended knows
    exact Or.inr ⟨deviceId, token, met, presented, extended.subset accepted, answered,
      knows.actsForDevice wellFormed matched rfl⟩

/-- Before the guard the routes call open methods only. -/
theorem traces_companionRoutes {opened routes : List Route}
    (free : opened ⊆ companionOpenGet ++ companionOpenPost)
    (known : routes ⊆ companionGet ++ companionPost) :
    Traces behaviour.answer (Permits (CompanionPermits behaviour request))
      (Yields companionRefusal Admits)
      (consult env ⟨server, request, none⟩
        (opened.map .route ++ .guard .companion :: routes.map .route)) past := by
  rcases consult_cases env ⟨server, request, none⟩ opened
    (.guard .companion :: routes.map .route) with
    ⟨route, member, parameters, matched, equal⟩ | equal
  · rcases companionRoutes_open route (free member) with ⟨plain, methods⟩
    rw [equal]
    apply traces_permitted
    · intro authorizes
      rw [plain] at authorizes
      contradiction
    · intro later invocation _ knows
      exact Or.inl (methods _ knows.method)
  · rw [equal]
    exact traces_companion known

theorem traces_companionTable {entries : List Entry} (role : server.role = .companion)
    (table : server.role.routes request.method = some entries) :
    Traces behaviour.answer (Permits (CompanionPermits behaviour request))
      (Yields companionRefusal Admits) (consult env ⟨server, request, none⟩ entries) [] := by
  rw [role, Role.routes] at table
  split at table
  · cases table
    exact traces_companionRoutes (List.subset_append_left _ _) (List.subset_append_left _ _)
  · split at table
    · cases table
      exact traces_notFound
    · split at table
      · cases table
        exact traces_companionRoutes (List.subset_append_right _ _)
          (List.subset_append_right _ _)
      · contradiction

/-! ## Every request -/

/-- After these encounters the listener makes a call, in some states. -/
def MakesCall (behaviour : Behaviour env S) (server : Server) (request : Request)
    (past : Past env S) (invocation : Invocation) : Prop :=
  ∃ states met after, ((dispatch env server request).meet behaviour.answer states).1 =
    past ++ ⟨.run invocation, met⟩ :: after

/-- The response where the effects meet these states. -/
def Responds (behaviour : Behaviour env S) (server : Server) (request : Request)
    (states : List (Service env S)) (response : Response) : Prop :=
  ((dispatch env server request).meet behaviour.answer states).2 = .done response

/-- The only answer 401 of a listener carries this text. -/
def Unauthorized (text : String) (outcome : Except Failure Response) (_ : Past env S) : Prop :=
  ∀ response, outcome = .ok response → response.status = 401 →
    response = errorResponse 401 text.toList

theorem traces_dispatch
    (tables : ∀ entries, server.role.routes request.method = some entries →
      ∃ text, Traces behaviour.answer (Permits permitted) (Yields text Admits)
        (consult env ⟨server, request, none⟩ entries) []) :
    ∃ text, Traces behaviour.answer (Permits permitted) (Unauthorized text)
      (dispatch env server request) [] := by
  unfold dispatch
  cases table : server.role.routes request.method with
  | none =>
      refine ⟨workerRefusal, ?_⟩
      rintro response ⟨⟩ impossible
      exact absurd impossible (by decide)
  | some entries =>
      rcases tables entries table with ⟨text, traces⟩
      refine ⟨text, traces_recover traces ?_ ?_⟩
      · rintro value later admits response ⟨⟩ impossible
        exact absurd impossible admits
      · rintro failure later refuses response ⟨⟩ unauthorized
        cases failure with
        | raised => exact absurd unauthorized (by decide)
        | rejected status detail =>
            obtain rfl : status = 401 := unauthorized
            obtain rfl : detail = text := refuses rfl
            rfl

theorem MakesCall.isPermitted {invocation : Invocation}
    {post : Except Failure Response → Past env S → Prop}
    (makes : MakesCall behaviour server request past invocation)
    (traces : Traces behaviour.answer (Permits permitted) post (dispatch env server request) []) :
    permitted past invocation := by
  rcases makes with ⟨states, met, after, split⟩
  exact (traces.meet states).1 past ⟨.run invocation, met⟩ after split

theorem Responds.unauthorized {states : List (Service env S)} {response : Response}
    (responds : Responds behaviour server request states response)
    (traces : Traces behaviour.answer (Permits permitted) (Unauthorized text)
      (dispatch env server request) []) (status : response.status = 401) :
    response = errorResponse 401 text.toList := by
  have left := (traces.meet states).2
  rw [responds] at left
  exact left response rfl status

theorem traces_administrationListener (behaviour : Behaviour env S)
    (role : server.role = .administration) :
    ∃ text, Traces behaviour.answer (Permits (AdministrationPermits server request))
      (Unauthorized text) (dispatch env server request) [] :=
  traces_dispatch fun _ table => traces_administrationTable role table

theorem traces_workerListener (behaviour : Behaviour env S)
    (role : server.role = .worker) :
    ∃ text, Traces behaviour.answer (Permits (WorkerPermits server request))
      (Unauthorized text) (dispatch env server request) [] :=
  traces_dispatch fun _ table => ⟨_, traces_workerTable role table⟩

theorem traces_companionListener (behaviour : Behaviour env S)
    (role : server.role = .companion) :
    ∃ text, Traces behaviour.answer (Permits (CompanionPermits behaviour request))
      (Unauthorized text) (dispatch env server request) [] :=
  traces_dispatch fun _ table => ⟨_, traces_companionTable role table⟩

/-- Two answers 401 to a request are the same. -/
theorem Responds.unique {states others : List (Service env S)} {response other : Response}
    (first : Responds behaviour server request states response)
    (second : Responds behaviour server request others other) (status : response.status = 401)
    (otherStatus : other.status = 401) : response = other := by
  cases role : server.role with
  | administration =>
      rcases traces_administrationListener behaviour role with ⟨text, traces⟩
      rw [first.unauthorized traces status, second.unauthorized traces otherStatus]
  | worker =>
      rcases traces_workerListener behaviour role with ⟨text, traces⟩
      rw [first.unauthorized traces status, second.unauthorized traces otherStatus]
  | companion =>
      rcases traces_companionListener behaviour role with ⟨text, traces⟩
      rw [first.unauthorized traces status, second.unauthorized traces otherStatus]

/-- For every request, whatever the service does and whatever happens between two
effects: the administration listener makes a call that is not of a worker route
only for the administration token, and no worker route matches a path of a `POST`
route behind its guard; the companion listener makes a call that is not open only
for the device that `authorize` accepted; the worker listener without a shared
token makes a call that is not open only for a worker whose token the request
presented, or for a registration whose previous identity owns that token; and
where two runs both end with the answer 401, the answers are the same. -/
theorem listeners_authenticate (behaviour : Behaviour env S) (server : Server)
    (request : Request) :
    (server.role = .administration → ∀ past invocation,
      MakesCall behaviour server request past invocation → invocation.method ∉ workerMethods →
        request.bearerToken = some server.token) ∧
    (∀ worker ∈ workerRoutes, ∀ administration ∈ administrationPost, ∀ path,
      (administration.parameters path).isSome = true → worker.parameters path = none) ∧
    (server.role = .companion → ∀ past invocation,
      MakesCall behaviour server request past invocation →
        invocation.method ∉ openCompanionMethods → ActsForDevice behaviour request past invocation) ∧
    (server.role = .worker → server.workerToken = none → ∀ past invocation,
      MakesCall behaviour server request past invocation →
        invocation.method ∉ openWorkerMethods → ActsForPresented request past invocation) ∧
    ∀ states others response other, Responds behaviour server request states response →
      Responds behaviour server request others other → response.status = 401 →
        other.status = 401 → response = other := by
  refine ⟨?_, ?_, ?_, ?_, ?_⟩
  · intro role past invocation makes guarded
    rcases traces_administrationListener behaviour role with ⟨text, traces⟩
    rcases makes.isPermitted traces with early | presented
    · exact absurd early guarded
    · exact presented
  · intro worker early administration guarded path matched
    exact workerRoutes_apart early guarded matched
  · intro role past invocation makes closed
    rcases traces_companionListener behaviour role with ⟨text, traces⟩
    rcases makes.isPermitted traces with open_ | acts
    · exact absurd open_ closed
    · exact acts
  · intro role unshared past invocation makes closed
    rcases traces_workerListener behaviour role with ⟨text, traces⟩
    rcases makes.isPermitted traces unshared with open_ | acts
    · exact absurd open_ closed
    · exact acts
  · intro states others response other first second
    exact first.unique second

/-! ## A worker that changes its name -/

/-- The repositories of one paired worker. -/
def pairedEnvironment : Environment where
  jobs := Jobs.winterEnvironment
  jobsConfig := .default
  companions := ⟨id⟩
  int := fun _ => none

def pairedService : Service pairedEnvironment Unit where
  jobRepository := some ⟨_, Jobs.pairedOnce, rfl⟩
  companionRepository := none
  now := ⟨0, by decide⟩
  rest := ()

/-- A service that accepts every call. -/
def acceptingBehaviour : Behaviour pairedEnvironment Unit where
  run := fun _ _ => .ok (.atom .null)
  send := fun _ => .complete

def workerServer : Server where
  token := ['a']
  workerToken := none
  role := .worker
  companionCaSha256 := none
  companionCaCertificatePem := none
  token_nonempty := by decide
  tokens_different := by simp

/-- A registration under a new name, with the token of the old one. -/
def renamingRequest (body : Text) : Request where
  method := "POST".toList
  rawPath := "/v1/jobs/workers/register".toList
  headers := [("Authorization".toList, "Bearer t".toList),
    ("X-Ohana-Previous-Worker-Id".toList, Jobs.oldName)]
  contentLength := some 19
  body := some body

theorem path_renamingRequest (body : Text) :
    (renamingRequest body).path = "/v1/jobs/workers/register".toList := by
  show "/v1/jobs/workers/register".toList.takeWhile (fun c => c != '?') = _
  decide +kernel

/-- The request is handled by the registration. -/
theorem dispatch_renamingRequest (body : Text) :
    dispatch pairedEnvironment workerServer (renamingRequest body) =
      (Handler.runRegisterWorker ⟨workerServer, renamingRequest body, none⟩).recover
        fun failure => done failure.response := by
  have misses : ∀ other ∈ workerRoutes.take 3,
      other.parameters "/v1/jobs/workers/register".toList = none := by
    decide +kernel
  have hits : (route "/v1/jobs/workers/register" .registerWorker).parameters
      "/v1/jobs/workers/register".toList = some [] := by
    decide +kernel
  rw [← path_renamingRequest body] at misses hits
  have handled : consult pairedEnvironment ⟨workerServer, renamingRequest body, none⟩
      ((workerRoutes.take 3 ++ route "/v1/jobs/workers/register" .registerWorker ::
        workerRoutes.drop 4).map .route) =
      Handler.runRegisterWorker ⟨workerServer, renamingRequest body, none⟩ :=
    consult_hit misses hits
  exact congrArg (Program.recover fun failure => done failure.response) handled

/-- A registration whose previous identity is accepted makes its call. -/
theorem renaming_makes_call {body workerId : Text} {payload : Fields}
    (read : Call.json ⟨workerServer, renamingRequest body, none⟩ = .ok payload)
    (named : payload.lookup "worker_id".toList = some (.string workerId))
    (accepted : acceptingBehaviour.answer
      (.authorizeWorker workerId ['t'] (some Jobs.oldName)) pairedService = true) :
    MakesCall acceptingBehaviour workerServer (renamingRequest body)
      [⟨.authorizeWorker workerId ['t'] (some Jobs.oldName), pairedService⟩]
      ⟨.registerWorker, [.document payload, .text Jobs.oldName]⟩ := by
  have previous : trim isWhitespace
      ((renamingRequest body).header "X-Ohana-Previous-Worker-Id") = Jobs.oldName := by
    show trim isWhitespace ((renamingRequest []).header "X-Ohana-Previous-Worker-Id") = _
    decide +kernel
  have token : (renamingRequest body).bearerToken = some ['t'] := by
    show (renamingRequest []).bearerToken = _
    decide +kernel
  have paired : Call.pairedMatches ⟨workerServer, renamingRequest body, none⟩ payload
      (some Jobs.oldName) =
        Program.ask (Effect.authorizeWorker workerId ['t'] (some Jobs.oldName)) := by
    unfold Call.pairedMatches
    rw [named, token]
  have registers : Handler.runRegisterWorker ⟨workerServer, renamingRequest body, none⟩ =
      (Program.ask (Effect.authorizeWorker workerId ['t'] (some Jobs.oldName)) >>= fun paired =>
        if paired then pure () else Program.fail (.rejected 401 workerRefusal)) >>= fun _ =>
          Call.execute .registerWorker [.document payload, .text Jobs.oldName] := by
    unfold Handler.runRegisterWorker Call.authorizeWorker
    rw [read, previous, ← paired]
    rfl
  refine ⟨[pairedService, pairedService], pairedService, [], ?_⟩
  rw [dispatch_renamingRequest, registers]
  simp only [Program.ask, Bind.bind, Program.bind, Program.recover, Program.meet]
  rw [if_pos accepted]
  rfl

/-- The name of the worker in a registration. -/
def namedBody (workerId : String) : Text :=
  ("\x7b\"worker_id\":\"" ++ workerId ++ "\"\x7d").toList

/-- A registration can act for a worker that no authorization before it names,
the name being stripped afterwards, and for a worker to whom the presented token
does not belong, the previous identity owning it. -/
theorem registration_acts_for_another :
    (¬ ∀ (request : Request) (past : Past pairedEnvironment Unit) (invocation : Invocation),
      MakesCall acceptingBehaviour workerServer request past invocation →
        invocation.method ∉ openWorkerMethods →
        ∃ workerId token previous met, invocation.worker = some workerId ∧
          ⟨.authorizeWorker workerId token previous, met⟩ ∈ past ∧
          acceptingBehaviour.answer (.authorizeWorker workerId token previous) met = true) ∧
    ¬ ∀ (request : Request) (past : Past pairedEnvironment Unit) (invocation : Invocation),
      MakesCall acceptingBehaviour workerServer request past invocation →
        invocation.method ∉ openWorkerMethods →
        ∃ workerId token asked previous met, invocation.worker = some workerId ∧
          ⟨.authorizeWorker asked token previous, met⟩ ∈ past ∧
          acceptingBehaviour.answer (.authorizeWorker workerId token none) met = true := by
  constructor
  · intro each
    have makes : MakesCall acceptingBehaviour workerServer (renamingRequest (namedBody "new "))
        [⟨.authorizeWorker (Jobs.newName ++ [' ']) ['t'] (some Jobs.oldName), pairedService⟩]
        ⟨.registerWorker, [.document (transferPayload (Jobs.newName ++ [' '])),
          .text Jobs.oldName]⟩ := by
      apply renaming_makes_call
      · decide +kernel
      · rfl
      · decide +kernel
    rcases each _ _ _ makes (by decide) with ⟨workerId, token, previous, met, acts, member, _⟩
    cases List.mem_singleton.mp member
    have stripped : Companions.strip (Jobs.newName ++ [' ']) ≠ Jobs.newName ++ [' '] := by
      decide
    exact stripped (Option.some.inj acts)
  · intro each
    have makes : MakesCall acceptingBehaviour workerServer (renamingRequest (namedBody "new"))
        [⟨.authorizeWorker Jobs.newName ['t'] (some Jobs.oldName), pairedService⟩]
        ⟨.registerWorker, [.document (transferPayload Jobs.newName), .text Jobs.oldName]⟩ := by
      apply renaming_makes_call
      · decide +kernel
      · rfl
      · decide +kernel
    rcases each _ _ _ makes (by decide) with
      ⟨workerId, token, asked, previous, met, acts, member, accepted⟩
    cases List.mem_singleton.mp member
    have stripped : Companions.strip Jobs.newName = workerId := Option.some.inj acts
    have refused : acceptingBehaviour.answer
        (.authorizeWorker (Companions.strip Jobs.newName) ['t'] none) pairedService = false := by
      decide +kernel
    rw [← stripped, refused] at accepted
    contradiction

end OhanaAgent.Api
