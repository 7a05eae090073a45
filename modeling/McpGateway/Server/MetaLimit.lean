import McpGateway.Shared.GoMap
import McpGateway.Shared.NetAddress
import McpGateway.Shared.Refill

namespace McpGateway.Server

open Shared

structure MetaRequest where
  remoteAddr : String
  forwardedFor : String
  realIp : String

def parseIPToken (raw : String) : String :=
  if trimSpace raw = "" then ""
  else
    let host := ((splitHostPort (trimSpace raw).toList).map Prod.fst).getD (trimSpace raw).toList
    let token := trimCutset ['[', ']'] (trimSpace (String.ofList host)).toList
    (parseIPText (String.ofList token)).elim "" ipString

def forwardedTokens (forwardedFor : String) : List String :=
  (forwardedFor.toList.splitOn ',').map fun token => parseIPToken (String.ofList token)

def firstForwardedIP (forwardedFor : String) : String :=
  ((forwardedTokens forwardedFor).find? fun ip => ip ≠ "").getD ""

def isTrustedProxyIP (ipRaw : String) : Bool :=
  (parseIPText (trimSpace ipRaw)).any fun ip => isLoopback ip || isPrivate ip

def clientIPFromRequest (request : MetaRequest) : String :=
  let remoteIP := if parseIPToken request.remoteAddr = "" then "unknown" else parseIPToken request.remoteAddr
  if remoteIP ≠ "unknown" ∧ isTrustedProxyIP remoteIP then
    if firstForwardedIP request.forwardedFor ≠ "" then firstForwardedIP request.forwardedFor
    else if parseIPToken request.realIp ≠ "" then parseIPToken request.realIp
    else remoteIP
  else remoteIP

example : clientIPFromRequest ⟨"127.0.0.1:12345", "198.51.100.10, 127.0.0.1", ""⟩ = "198.51.100.10" ∧
    clientIPFromRequest ⟨"198.51.100.50:2345", "203.0.113.20", "203.0.113.21"⟩ = "198.51.100.50" := by
  decide +kernel

-- metaRateLimiter: its two maps have the same keys.
structure MetaRateLimiter where
  rate : Rat
  burst : Rat
  maxEntries : Nat
  entries : GoMap String (Level Rat)

def newMetaRateLimiter (ratePerSecond burst : Rat) (maxEntries : Nat) : Option MetaRateLimiter :=
  if ratePerSecond ≤ 0 ∨ burst ≤ 0 ∨ maxEntries = 0 then none else some ⟨ratePerSecond, burst, maxEntries, ∅⟩

-- The entry that was used longest ago, the first of equal ones in the order in which the map is ranged over.
def oldestKey (entries : GoMap String (Level Rat)) (order : List String) : String × Rat :=
  order.foldl (fun oldest key => (entries.lookup key).elim oldest fun level =>
    if oldest.1 = "" ∨ level.last < oldest.2 then (key, level.last) else oldest) ("", 0)

def evictOldestLocked (entries : GoMap String (Level Rat)) (order : List String) : GoMap String (Level Rat) :=
  if (oldestKey entries order).1 = "" then entries else entries.erase (oldestKey entries order).1

def MetaRateLimiter.spend (limiter : MetaRateLimiter) (key : String) (now : Rat) : MetaRateLimiter × Bool :=
  let (level, allowed) := Level.take limiter.rate limiter.burst (limiter.entries.lookup key) now
  ({ limiter with entries := limiter.entries.insert key level }, allowed)

def MetaRateLimiter.allow (limiter : MetaRateLimiter) (key : String) (now : Rat) (order : List String) :
    MetaRateLimiter × Bool :=
  let key := if trimSpace key = "" then "unknown" else key
  if key ∉ limiter.entries ∧ limiter.maxEntries ≤ limiter.entries.keys.length then
    { limiter with entries := evictOldestLocked limiter.entries order }.spend key now
  else limiter.spend key now

/-- A client's request to /meta: the address it has, what it sends in the headers, the proxy it goes through if there is
one, and when the limiter sees it. -/
structure Hit where
  address : String
  forwardedFor : Option String
  realIp : String
  proxy : Option String
  now : Rat
  order : List String

def Hit.received (hit : Hit) : MetaRequest :=
  match hit.proxy with
  | none => ⟨hit.address, hit.forwardedFor.getD "", hit.realIp⟩
  | some proxy => ⟨proxy, hit.forwardedFor.elim hit.address fun sent => sent ++ ", " ++ hit.address, hit.realIp⟩

def Hit.client (hit : Hit) : String := parseIPToken hit.address

def MetaRateLimiter.serve (limiter : MetaRateLimiter) (hit : Hit) : MetaRateLimiter × Bool :=
  limiter.allow (clientIPFromRequest hit.received) hit.now hit.order

def admittedCount (client : String) (opens closes : Rat) : MetaRateLimiter → List Hit → Nat
  | _, [] => 0
  | limiter, hit :: rest =>
    (if hit.client = client ∧ opens ≤ hit.now ∧ hit.now ≤ closes ∧ (limiter.serve hit).2 = true then 1 else 0) +
      admittedCount client opens closes (limiter.serve hit).1 rest

structure Hit.Placed (hit : Hit) : Prop where
  address : hit.client ≠ ""
  single : ',' ∉ hit.address.toList
  proxy : ∀ proxy ∈ hit.proxy, isTrustedProxyIP (parseIPToken proxy) = true
  direct : hit.proxy = none → isTrustedProxyIP hit.client = false

/-- The first address that the client has put into the header itself, if any, is its own. -/
def Hit.Honest (hit : Hit) : Prop :=
  ∀ sent ∈ hit.forwardedFor, firstForwardedIP sent = "" ∨ firstForwardedIP sent = hit.client

theorem parseIPToken_congr {left right : String} (same : trimSpace left = trimSpace right) :
    parseIPToken left = parseIPToken right := by
  unfold parseIPToken
  rw [same]

variable {address : String}

theorem forwardedTokens_single (single : ',' ∉ address.toList) : forwardedTokens address = [parseIPToken address] := by
  rw [forwardedTokens, List.splitOn_eq_singleton single, List.map_singleton, String.ofList_toList]

theorem forwardedTokens_appended (sent : String) (single : ',' ∉ address.toList) :
    forwardedTokens (sent ++ ", " ++ address) = forwardedTokens sent ++ [parseIPToken address] := by
  have runes : (sent ++ ", " ++ address).toList = sent.toList ++ ',' :: (" " ++ address).toList := by
    simp
  have blank : ∀ c ∈ " ".toList, isSpace c = true := List.all_eq_true.mp (by decide)
  have spaced : ',' ∉ (" " ++ address).toList := by
    rw [String.toList_append, List.mem_append, not_or]
    exact ⟨by decide, single⟩
  have last := forwardedTokens_single spaced
  rw [parseIPToken_congr (trimSpace_blanks address blank), forwardedTokens] at last
  rw [forwardedTokens, runes, List.splitOn_append_cons_self, List.map_append, last]
  rfl

theorem firstForwardedIP_single (single : ',' ∉ address.toList) : firstForwardedIP address = parseIPToken address := by
  rw [firstForwardedIP, forwardedTokens_single single, List.find?_singleton]
  split_ifs with visible
  · rfl
  · simpa using Eq.symm (by simpa using visible)

theorem firstForwardedIP_appended (sent : String) (single : ',' ∉ address.toList) :
    firstForwardedIP (sent ++ ", " ++ address) =
      if firstForwardedIP sent = "" then parseIPToken address else firstForwardedIP sent := by
  have last := firstForwardedIP_single single
  rw [firstForwardedIP, forwardedTokens_single single] at last
  unfold firstForwardedIP
  rw [forwardedTokens_appended sent single, List.find?_append]
  cases found : (forwardedTokens sent).find? fun ip => ip ≠ "" with
  | none => simpa using last
  | some ip =>
    have visible : ip ≠ "" := by simpa using List.find?_some found
    simp [visible]

theorem clientIPFromRequest_trusted {request : MetaRequest}
    (trusted : isTrustedProxyIP (parseIPToken request.remoteAddr) = true)
    (forwarded : firstForwardedIP request.forwardedFor ≠ "") :
    clientIPFromRequest request = firstForwardedIP request.forwardedFor := by
  have known : parseIPToken request.remoteAddr ≠ "" := by
    intro blank
    rw [blank] at trusted
    exact absurd trusted (by decide)
  have other : parseIPToken request.remoteAddr ≠ "unknown" := by
    intro unknown
    rw [unknown] at trusted
    exact absurd trusted (by decide)
  unfold clientIPFromRequest
  rw [if_neg known]
  dsimp only
  rw [if_pos ⟨other, trusted⟩, if_pos forwarded]

theorem clientIPFromRequest_direct {request : MetaRequest} (known : parseIPToken request.remoteAddr ≠ "")
    (outside : isTrustedProxyIP (parseIPToken request.remoteAddr) = false) :
    clientIPFromRequest request = parseIPToken request.remoteAddr := by
  unfold clientIPFromRequest
  rw [if_neg known]
  dsimp only
  rw [if_neg fun trusted => by rw [outside] at trusted; exact absurd trusted.2 (by decide)]

theorem Hit.client_of_front {hit : Hit} {proxy sent : String} (placed : hit.Placed) (route : hit.proxy = some proxy)
    (sends : hit.forwardedFor = some sent) (front : firstForwardedIP sent ≠ "") :
    clientIPFromRequest hit.received = firstForwardedIP sent := by
  have same : hit.received = ⟨proxy, sent ++ ", " ++ hit.address, hit.realIp⟩ := by
    rw [Hit.received, route, sends]
    rfl
  have read : firstForwardedIP (sent ++ ", " ++ hit.address) = firstForwardedIP sent := by
    rw [firstForwardedIP_appended sent placed.single, if_neg front]
  rw [same]
  refine (clientIPFromRequest_trusted ?_ ?_).trans read
  · exact placed.proxy proxy route
  · exact fun blank => front (read.symm.trans blank)

theorem Hit.client_of_honest {hit : Hit} (placed : hit.Placed) (honest : hit.Honest) :
    clientIPFromRequest hit.received = hit.client := by
  cases route : hit.proxy with
  | none =>
    have same : hit.received = ⟨hit.address, hit.forwardedFor.getD "", hit.realIp⟩ := by rw [Hit.received, route]
    rw [same]
    exact clientIPFromRequest_direct placed.address (placed.direct route)
  | some proxy =>
    have same : hit.received =
        ⟨proxy, hit.forwardedFor.elim hit.address fun sent => sent ++ ", " ++ hit.address, hit.realIp⟩ := by
      rw [Hit.received, route]
    have read : firstForwardedIP (hit.forwardedFor.elim hit.address fun sent => sent ++ ", " ++ hit.address) =
        hit.client := by
      cases sends : hit.forwardedFor with
      | none => exact firstForwardedIP_single placed.single
      | some sent =>
        rw [Option.elim_some, firstForwardedIP_appended sent placed.single]
        rcases honest sent sends with blank | own
        · rw [if_pos blank]
          rfl
        · rw [own, if_neg placed.address]
    rw [same]
    refine (clientIPFromRequest_trusted ?_ ?_).trans read
    · exact placed.proxy proxy route
    · exact fun blank => placed.address (read.symm.trans blank)

theorem trimSpace_parseIPToken (raw : String) : trimSpace (parseIPToken raw) = parseIPToken raw := by
  unfold parseIPToken
  split_ifs
  · exact trimSpace_empty
  · dsimp only
    cases parseIPText _ with
    | none => exact trimSpace_empty
    | some ip => exact trimSpace_ipString ip

theorem firstForwardedIP_token {forwardedFor : String} (forwarded : firstForwardedIP forwardedFor ≠ "") :
    ∃ raw, firstForwardedIP forwardedFor = parseIPToken raw := by
  unfold firstForwardedIP at forwarded ⊢
  cases found : (forwardedTokens forwardedFor).find? fun ip => ip ≠ "" with
  | none =>
    rw [found] at forwarded
    exact absurd rfl forwarded
  | some ip =>
    obtain ⟨token, -, read⟩ := List.mem_map.mp (List.mem_of_find?_eq_some found)
    exact ⟨_, read.symm⟩

theorem clientIPFromRequest_visible (request : MetaRequest) : trimSpace (clientIPFromRequest request) ≠ "" := by
  have token {raw : String} (known : parseIPToken raw ≠ "") : trimSpace (parseIPToken raw) ≠ "" := by
    rwa [trimSpace_parseIPToken]
  unfold clientIPFromRequest
  have remote : trimSpace (if parseIPToken request.remoteAddr = "" then "unknown"
      else parseIPToken request.remoteAddr) ≠ "" := by
    split_ifs with blank
    · decide
    · exact token blank
  generalize (if parseIPToken request.remoteAddr = "" then "unknown" else parseIPToken request.remoteAddr) = remoteIP
    at remote ⊢
  dsimp only
  split_ifs with trusted forwarded real
  · obtain ⟨raw, found⟩ := firstForwardedIP_token forwarded
    rw [found] at forwarded ⊢
    exact token forwarded
  · exact token real
  · exact remote
  · exact remote

section Entries

variable {limiter : MetaRateLimiter} {clients : List String}

theorem MetaRateLimiter.serve_of_room {hit : Hit} (room : ¬ (clientIPFromRequest hit.received ∉ limiter.entries ∧
      limiter.maxEntries ≤ limiter.entries.keys.length)) :
    limiter.serve hit = limiter.spend (clientIPFromRequest hit.received) hit.now := by
  unfold MetaRateLimiter.serve MetaRateLimiter.allow
  rw [if_neg (clientIPFromRequest_visible _)]
  dsimp only
  rw [if_neg room]

def MetaRateLimiter.Tracks (limiter : MetaRateLimiter) (clients : List String) : Prop :=
  limiter.entries.keys ⊆ clients ∧ clients.length ≤ limiter.maxEntries

theorem MetaRateLimiter.Tracks.serve {hit : Hit} (tracks : limiter.Tracks clients) (known : hit.client ∈ clients)
    (placed : hit.Placed) (honest : hit.Honest) : limiter.serve hit = limiter.spend hit.client hit.now := by
  have room : ¬ (hit.client ∉ limiter.entries ∧ limiter.maxEntries ≤ limiter.entries.keys.length) := by
    rintro ⟨fresh, full⟩
    have within : limiter.entries.keys ⊆ clients.erase hit.client := by
      intro key mem
      refine (List.mem_erase_of_ne ?_).mpr (tracks.1 mem)
      rintro rfl
      exact fresh (AList.mem_keys.mpr mem)
    have fewer := (List.subperm_of_subset (AList.keys_nodup _) within).length_le
    have pos := List.length_pos_of_mem known
    rw [List.length_erase_of_mem known] at fewer
    have enough := tracks.2
    omega
  rw [← Hit.client_of_honest placed honest] at room ⊢
  exact serve_of_room room

variable {client : String} {opens closes : Rat}

theorem MetaRateLimiter.Tracks.spend {now : Rat} (tracks : limiter.Tracks clients) (known : client ∈ clients) :
    (limiter.spend client now).1.Tracks clients := by
  refine ⟨fun key mem => ?_, tracks.2⟩
  rcases (AList.mem_insert _).mp (AList.mem_keys.mpr mem) with rfl | old
  · exact known
  · exact tracks.1 (AList.mem_keys.mp old)

theorem lookup_spend (limiter : MetaRateLimiter) (key other : String) (now : Rat) :
    (limiter.spend key now).1.entries.lookup other =
      if other = key then some (Level.take limiter.rate limiter.burst (limiter.entries.lookup key) now).1
      else limiter.entries.lookup other := by
  unfold MetaRateLimiter.spend
  dsimp only
  split_ifs with same
  · rw [same, AList.lookup_insert]
  · exact AList.lookup_insert_ne same

theorem admittedCount_eq (tracks : limiter.Tracks clients) {hits : List Hit}
    (known : ∀ hit ∈ hits, hit.client ∈ clients) (placed : ∀ hit ∈ hits, hit.Placed)
    (honest : ∀ hit ∈ hits, hit.Honest) : admittedCount client opens closes limiter hits =
      Level.admitted limiter.rate limiter.burst opens closes (limiter.entries.lookup client)
        ((hits.filter fun hit => hit.client = client).map Hit.now) := by
  induction hits generalizing limiter with
  | nil => rfl
  | cons hit rest ih =>
    obtain ⟨knownHere, knownLater⟩ := List.forall_mem_cons.mp known
    obtain ⟨placedHere, placedLater⟩ := List.forall_mem_cons.mp placed
    obtain ⟨honestHere, honestLater⟩ := List.forall_mem_cons.mp honest
    have tracksLater : (limiter.spend hit.client hit.now).1.Tracks clients := tracks.spend knownHere
    have later := ih tracksLater knownLater placedLater honestLater
    rw [admittedCount, tracks.serve knownHere placedHere honestHere, later, lookup_spend]
    by_cases own : hit.client = client
    · rw [List.filter_cons_of_pos (by simpa using own), List.map_cons, Level.admitted, own, if_pos rfl]
      simp only [true_and]
      rfl
    · rw [List.filter_cons_of_neg (by simpa using own), if_neg fun granted => own granted.1,
        if_neg fun same => own same.symm, Nat.zero_add]
      rfl

theorem MetaRateLimiter.spend_fresh {key : String} (fresh : key ∉ limiter.entries) (size : 1 ≤ limiter.burst)
    (now : Rat) : (limiter.spend key now).2 = true := by
  have full : ¬ Level.available limiter.rate limiter.burst none now < 1 := not_lt.mpr size
  unfold MetaRateLimiter.spend Level.take
  rw [AList.lookup_eq_none.mpr fresh, if_neg full]

theorem admittedCount_fresh (size : 1 ≤ limiter.burst) {hits : List Hit}
    (own : ∀ hit ∈ hits, hit.client = client ∧ opens ≤ hit.now ∧ hit.now ≤ closes)
    (fresh : ∀ hit ∈ hits, clientIPFromRequest hit.received ∉ limiter.entries)
    (distinct : (hits.map fun hit => clientIPFromRequest hit.received).Nodup)
    (room : limiter.entries.keys.length + hits.length ≤ limiter.maxEntries) :
    admittedCount client opens closes limiter hits = hits.length := by
  induction hits generalizing limiter with
  | nil => rfl
  | cons hit rest ih =>
    obtain ⟨ownHere, ownLater⟩ := List.forall_mem_cons.mp own
    obtain ⟨freshHere, freshLater⟩ := List.forall_mem_cons.mp fresh
    rw [List.map_cons, List.nodup_cons] at distinct
    rw [List.length_cons] at room ⊢
    have served : limiter.serve hit = limiter.spend (clientIPFromRequest hit.received) hit.now :=
      MetaRateLimiter.serve_of_room fun full => absurd full.2 (by omega)
    have keys : (limiter.spend (clientIPFromRequest hit.received) hit.now).1.entries.keys.length =
        limiter.entries.keys.length + 1 := by
      unfold MetaRateLimiter.spend
      dsimp only
      rw [AList.keys_insert, List.erase_of_not_mem freshHere, List.length_cons]
    have granted := MetaRateLimiter.spend_fresh freshHere size hit.now
    have later := @ih (limiter.spend (clientIPFromRequest hit.received) hit.now).1 size ownLater
    rw [admittedCount, served, if_pos ⟨ownHere.1, ownHere.2.1, ownHere.2.2, granted⟩, later ?_ distinct.2 ?_,
      Nat.add_comm]
    · intro other mem seen
      rcases (AList.mem_insert _).mp seen with same | old
      · exact distinct.1 (List.mem_map.mpr ⟨other, mem, same⟩)
      · exact freshLater other mem old
    · change _ ≤ limiter.maxEntries
      rw [keys]
      omega

end Entries

/-- The limit holds for a client as long as nobody puts a foreign address in front and there are fewer clients than
entries, whatever else the headers say and in whatever order the clock is read. -/
theorem meta_limit_holds (ratePerSecond burst : Rat) (maxEntries : Nat) (limiter : MetaRateLimiter)
    (created : newMetaRateLimiter ratePerSecond burst maxEntries = some limiter) (hits : List Hit)
    (placed : ∀ hit ∈ hits, hit.Placed) (honest : ∀ hit ∈ hits, hit.Honest)
    (few : (hits.map Hit.client).dedup.length < maxEntries) (client : String) (opens length : Rat)
    (nonneg : 0 ≤ length) :
    (admittedCount client opens (opens + length) limiter hits : Rat) ≤ burst + ratePerSecond * length := by
  unfold newMetaRateLimiter at created
  split_ifs at created with unlimited
  cases created
  rw [not_or, not_or, not_le, not_le] at unlimited
  have tracks : MetaRateLimiter.Tracks ⟨ratePerSecond, burst, maxEntries, ∅⟩ (hits.map Hit.client).dedup :=
    ⟨List.nil_subset _, few.le⟩
  have known : ∀ hit ∈ hits, hit.client ∈ (hits.map Hit.client).dedup :=
    fun hit mem => List.mem_dedup.mpr (List.mem_map_of_mem mem)
  have ordered : opens ≤ opens + length := le_add_of_nonneg_right nonneg
  rw [admittedCount_eq tracks known placed honest]
  refine (Level.admitted_le unlimited.1.le unlimited.2.1.le ordered _ _).trans ?_
  rw [add_sub_cancel_left]

namespace Sample

def visit (forwardedFor : Option String) (now : Rat) : Hit :=
  ⟨"203.0.113.9", forwardedFor, "", some "10.0.0.1:443", now, []⟩

def madeUpAddress (n : Nat) : String :=
  String.ofList ("198.51.100.".toList ++ Nat.toDigits 10 n)

def madeUpVisits (count : Nat) : List Hit :=
  (List.range count).map fun n => visit (some (madeUpAddress n)) 0

def metaLimiter : MetaRateLimiter := ⟨10, 10, 10000, ∅⟩

theorem visit_placed (forwardedFor : Option String) (now : Rat) : (visit forwardedFor now).Placed where
  address := by
    change parseIPToken "203.0.113.9" ≠ ""
    decide +kernel
  single := by
    change ',' ∉ "203.0.113.9".toList
    decide
  proxy := by
    rintro proxy ⟨⟩
    decide +kernel
  direct := by
    rintro ⟨⟩

end Sample

open Sample

theorem two_visits_limited : newMetaRateLimiter 10 10 10000 = some metaLimiter ∧
      (admittedCount "203.0.113.9" 0 (0 + 1) metaLimiter
        [visit none 0, visit (some "203.0.113.9, unknown") 1] : Rat) ≤ 10 + 10 * 1 := by
  have created : newMetaRateLimiter 10 10 10000 = some metaLimiter := if_neg (by decide +kernel)
  refine ⟨created, meta_limit_holds 10 10 10000 _ created _ ?_ ?_ (by decide +kernel) _ 0 1 (by decide)⟩
  · simp only [List.forall_mem_cons]
    exact ⟨visit_placed _ _, visit_placed _ _, by simp⟩
  · simp only [List.forall_mem_cons]
    refine ⟨?_, ?_, by simp⟩
    · rintro sent ⟨⟩
    · rintro sent ⟨⟩
      exact .inr (by decide +kernel)

theorem made_up_addresses_admitted : newMetaRateLimiter 10 10 10000 = some metaLimiter ∧
      (∀ hit ∈ madeUpVisits 11, hit.Placed) ∧ ((madeUpVisits 11).map Hit.client).dedup.length < 10000 ∧
      (10 : Rat) + 10 * 0 < admittedCount "203.0.113.9" 0 (0 + 0) metaLimiter (madeUpVisits 11) := by
  have placed : ∀ hit ∈ madeUpVisits 11, hit.Placed :=
    List.forall_mem_map.mpr fun n _ => visit_placed _ _
  have front : ∀ n ∈ List.range 11, firstForwardedIP (madeUpAddress n) = madeUpAddress n ∧
      madeUpAddress n ≠ "" := by
    decide +kernel
  have keys : (madeUpVisits 11).map (fun hit => clientIPFromRequest hit.received) =
      (List.range 11).map madeUpAddress := by
    rw [madeUpVisits, List.map_map]
    refine List.map_congr_left fun n mem => ?_
    obtain ⟨shown, known⟩ := front n mem
    have placedHere : (visit (some (madeUpAddress n)) 0).Placed := visit_placed _ _
    rw [Function.comp_apply, Hit.client_of_front placedHere rfl rfl (by rwa [shown]), shown]
  have distinct : ((madeUpVisits 11).map fun hit => clientIPFromRequest hit.received).Nodup := by
    rw [keys]
    decide +kernel
  have few := (List.dedup_sublist ((madeUpVisits 11).map Hit.client)).length_le
  refine ⟨if_neg (by decide +kernel), placed, few.trans_lt (by decide), ?_⟩
  rw [admittedCount_fresh (by decide) ?_ ?_ distinct (by decide)]
  · decide +kernel
  · refine List.forall_mem_map.mpr fun n _ => ⟨?_, le_rfl, (add_zero 0).ge⟩
    change parseIPToken "203.0.113.9" = "203.0.113.9"
    decide +kernel
  · exact fun hit _ => List.not_mem_nil

end McpGateway.Server
