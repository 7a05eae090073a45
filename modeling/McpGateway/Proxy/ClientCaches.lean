import McpGateway.Proxy.BackendClient
import McpGateway.Registration.Operations

namespace McpGateway.Proxy

open Shared Registration

structure VirtualServerInstance where
  scheme : String
  host : String

def VirtualServerInstance.target (instance_ : VirtualServerInstance) : String :=
  instance_.scheme ++ "://" ++ instance_.host ++ "/mcp"

structure Clients where
  router : GoMap String BackendClient
  proxy : GoMap String BackendClient
  instances : GoMap String VirtualServerInstance

namespace Clients

def new : Clients := ⟨∅, ∅, ∅⟩

def routerClient (clients : Clients) (record : ServerRecord) : BackendClient × Clients :=
  match clients.router.lookup record.id with
  | some client => (client, clients)
  | none => (newBackendClient record, { clients with router := clients.router.insert record.id (newBackendClient record) })

def storeBackendClient (clients : Clients) (record : ServerRecord) (backend : BackendClient) : Clients :=
  { clients with router := clients.router.insert record.id backend }

-- ProxyServer.getOrCreateClient, which hands its client to the router each time.
def getOrCreateClient (clients : Clients) (record : ServerRecord) : BackendClient × Clients :=
  match clients.proxy.lookup record.id with
  | some client => (client, clients.storeBackendClient record client)
  | none =>
    (newBackendClient record,
      storeBackendClient { clients with proxy := clients.proxy.insert record.id (newBackendClient record) } record
        (newBackendClient record))

def getOrCreateHandler (clients : Clients) (serverId host : String) (port : Int) (protocol : String) :
    VirtualServerInstance × Clients :=
  match clients.instances.lookup serverId with
  | some found => (found, clients)
  | none =>
    let created := ⟨backendScheme protocol, trimSpace host ++ ":" ++ toString port⟩
    (created, { clients with instances := clients.instances.insert serverId created })

end Clients

inductive RequestKind where
  | toolsCall
  | proxied
  | perServer

def requestURL (record : ServerRecord) : String := (newBackendClient record).baseURL

def Clients.send (clients : Clients) (record : ServerRecord) : RequestKind → String × Clients
  | .toolsCall => ((clients.routerClient record).1.baseURL, (clients.routerClient record).2)
  | .proxied => ((clients.getOrCreateClient record).1.baseURL, (clients.getOrCreateClient record).2)
  | .perServer =>
    ((clients.getOrCreateHandler record.id record.host record.port record.protocol).1.target,
      (clients.getOrCreateHandler record.id record.host record.port record.protocol).2)

def RequestKind.fills : RequestKind → RequestKind → Bool
  | .toolsCall, .toolsCall => true
  | .proxied, .toolsCall => true
  | .proxied, .proxied => true
  | .perServer, .perServer => true
  | _, _ => false

def Clients.cached (clients : Clients) (id : String) : RequestKind → Option String
  | .toolsCall => (clients.router.lookup id).map BackendClient.baseURL
  | .proxied => (clients.proxy.lookup id).map BackendClient.baseURL
  | .perServer => (clients.instances.lookup id).map VirtualServerInstance.target

theorem target_eq_requestURL (record : ServerRecord) :
    VirtualServerInstance.target ⟨backendScheme record.protocol, trimSpace record.host ++ ":" ++ toString record.port⟩ =
      requestURL record := by
  simp [VirtualServerInstance.target, requestURL, newBackendClient, String.append_assoc]

section

variable (clients : Clients) (record : ServerRecord) (kind other : RequestKind) (id : String)

theorem Clients.send_destination :
    (clients.send record kind).1 = (clients.cached record.id kind).getD (requestURL record) := by
  cases kind with
  | toolsCall =>
    simp only [Clients.send, Clients.routerClient, Clients.cached]
    cases clients.router.lookup record.id <;> rfl
  | proxied =>
    simp only [Clients.send, Clients.getOrCreateClient, Clients.cached]
    cases clients.proxy.lookup record.id <;> rfl
  | perServer =>
    simp only [Clients.send, Clients.getOrCreateHandler, Clients.cached]
    cases clients.instances.lookup record.id with
    | none => exact target_eq_requestURL record
    | some found => rfl

theorem Clients.cached_send : (clients.send record kind).2.cached id other =
      if kind.fills other = true ∧ id = record.id then some (clients.send record kind).1 else clients.cached id other := by
  cases kind with
  | toolsCall =>
    simp only [Clients.send, Clients.routerClient]
    cases found : clients.router.lookup record.id <;> cases other <;>
      obtain rfl | same := eq_or_ne id record.id <;> simp_all [Clients.cached, RequestKind.fills]
  | proxied =>
    simp only [Clients.send, Clients.getOrCreateClient, Clients.storeBackendClient]
    cases found : clients.proxy.lookup record.id <;> cases other <;>
      obtain rfl | same := eq_or_ne id record.id <;> simp_all [Clients.cached, RequestKind.fills]
  | perServer =>
    simp only [Clients.send, Clients.getOrCreateHandler]
    cases found : clients.instances.lookup record.id <;> cases other <;>
      obtain rfl | same := eq_or_ne id record.id <;> simp_all [Clients.cached, RequestKind.fills]

end

structure Traffic where
  pod : Pod
  clients : Clients
  sent : List (RequestKind × ServerRecord)

inductive Occurrence where
  | operation (timed : Timed)
  | request (kind : RequestKind) (record : ServerRecord)

def Traffic.step (service : Service) (traffic : Traffic) : Occurrence → Traffic
  | .operation timed => { traffic with pod := service.operate traffic.pod timed }
  | .request kind record =>
    { traffic with clients := (traffic.clients.send record kind).2, sent := (kind, record) :: traffic.sent }

def Traffic.Follows (traffic : Traffic) : Occurrence → Prop
  | .operation _ => True
  | .request kind record =>
    (traffic.clients.send record kind).1 = requestURL record ∧
      ∀ held, traffic.pod.registry.index.Holds held → held.id = record.id →
        (traffic.clients.send record kind).1 = requestURL held

def Traffic.last (traffic : Traffic) (id : String) (kind : RequestKind) : Option String :=
  (traffic.sent.find? fun prior => prior.1.fills kind && prior.2.id == id).map fun prior => requestURL prior.2

def Traffic.Settled (traffic : Traffic) : Occurrence → Prop
  | .operation _ => True
  | .request kind record =>
    (∀ url ∈ traffic.last record.id kind, url = requestURL record) ∧
      ∀ held, traffic.pod.registry.index.Holds held → held.id = record.id → requestURL held = requestURL record

def Traffic.Remembers (traffic : Traffic) : Prop :=
  ∀ id kind, traffic.clients.cached id kind = traffic.last id kind

section

variable {service : Service} {traffic : Traffic}

theorem Traffic.follows_iff (remembers : traffic.Remembers) (occurrence : Occurrence) :
    traffic.Follows occurrence ↔ traffic.Settled occurrence := by
  cases occurrence with
  | operation timed => rfl
  | request kind record =>
    have destination := traffic.clients.send_destination record kind
    rw [remembers] at destination
    have current : (traffic.clients.send record kind).1 = requestURL record ↔
        ∀ url ∈ traffic.last record.id kind, url = requestURL record := by
      rw [destination]
      cases traffic.last record.id kind <;> simp
    simp only [Traffic.Follows, Traffic.Settled, ← current]
    refine and_congr_right fun sent => ?_
    simp only [sent, eq_comm]

theorem Traffic.Remembers.step (remembers : traffic.Remembers) (occurrence : Occurrence)
    (settled : traffic.Settled occurrence) : (traffic.step service occurrence).Remembers := by
  cases occurrence with
  | operation timed => exact remembers
  | request kind record =>
    have sent : (traffic.clients.send record kind).1 = requestURL record :=
      ((traffic.follows_iff remembers _).mpr settled).1
    intro id other
    change (traffic.clients.send record kind).2.cached id other = _
    rw [Clients.cached_send, sent, remembers]
    by_cases filled : kind.fills other = true ∧ id = record.id
    · simp [Traffic.last, Traffic.step, filled]
    · have skipped : (kind.fills other && record.id == id) = false := by
        rw [Bool.and_eq_false_iff]
        grind
      simp [Traffic.last, Traffic.step, filled, skipped]

end

/-- In a run of a gateway every request goes to the current address of its server exactly if, whenever one is sent, all
that the index holds for the server has the address of the last request that left a client behind. -/
theorem requests_follow_address_iff (service : Service) (start : Pod) (occurrences : List Occurrence) :
    Along (Traffic.step service) Traffic.Follows ⟨start, .new, []⟩ occurrences ↔
      Along (Traffic.step service) Traffic.Settled ⟨start, .new, []⟩ occurrences := by
  have fresh : Traffic.Remembers ⟨start, .new, []⟩ := by
    intro id kind
    cases kind <;> simp [Clients.cached, Clients.new, Traffic.last]
  exact Along.congr_of_invariant fresh (fun traffic occurrence remembers settled => remembers.step occurrence settled)
    fun traffic occurrence remembers => traffic.follows_iff remembers occurrence

namespace Sample

def registersAt (host : String) : Occurrence :=
  .operation ⟨1, .register (some Registration.Sample.caller) (requestAt host) Registration.Sample.gatewayId
    Registration.Sample.rowId⟩

def served : Traffic :=
  run (Traffic.step Registration.Sample.service) ⟨⟨Registration.Sample.registry, 100 * second⟩, .new, []⟩
    [registersAt "10.0.3.7", registersAt "10.0.3.7"]

def moved (kind : RequestKind) : Traffic :=
  run (Traffic.step Registration.Sample.service) served
    ((served.pod.registry.index.lookupTool "list_pods").map (.request kind) ++ [registersAt "10.0.9.9"])

end Sample

theorem moved_server_keeps_old_address : [RequestKind.toolsCall, .proxied, .perServer].all (fun kind =>
      ((Sample.moved kind).pod.registry.index.lookupTool "list_pods").map (fun record =>
        (requestURL record, ((Sample.moved kind).clients.send record kind).1)) =
          [("https://10.0.9.9:8443/mcp", "https://10.0.3.7:8443/mcp")]) = true := by
  decide +kernel

end McpGateway.Proxy
