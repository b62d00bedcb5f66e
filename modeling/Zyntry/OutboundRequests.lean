import Zyntry.PythonAddresses
import Zyntry.PythonText
import Zyntry.Tools

/-!
# Requests to configured URLs

The server sends requests to URLs that users have configured, of tools and of websites. A
URL is validated first: every address that its host resolves to must be globally routable.
The HTTP client then resolves the host once more. The requests reach validated addresses
for every URL and every chain of redirects exactly if no such lookup answers with an
address that the lookup of the validation did not have.
-/

namespace Zyntry

open Python

/-- What is used of `urlsplit`. -/
structure SplitUrl where
  scheme : String
  hostname : Option String
  username : Option String := none
  password : Option String := none
  /-- `none` if reading the port fails. -/
  port : Option (Option ℕ) := some none

inductive NetError where
  | valueError (message : String)
  | other
deriving DecidableEq, Repr

/-- The functions that read URLs: two of the standard library, and the host that the HTTP
client finds in a URL. -/
structure UrlFunctions where
  urlsplit : String → Except NetError SplitUrl
  urljoin : String → String → Except NetError String
  clientHost : String → Option String

inductive LookupError where
  | osError
  | unicodeError (message : String)
deriving DecidableEq, Repr

/-- The answer to each lookup, by the number of lookups before it. -/
abbrev Resolver := ℕ → String → Except LookupError (List IpAddress)

/-- What the callers read of a response. -/
structure HttpReply where
  isRedirect : Bool
  location : Option String := none
  isSuccess : Bool
  contentLength : ℕ := 0
  decodes : Bool := true
deriving DecidableEq, Repr

/-- The server at an address; `none` if it takes no connection. -/
abbrev Servers := ℕ → IpAddress → Option HttpReply

inductive NetEvent where
  /-- `validate_outbound_url` has accepted a URL that resolves to these addresses. -/
  | validated (url : String) (addresses : List IpAddress)
  /-- A request is sent over a connection to the address. -/
  | sent (url : String) (address : IpAddress)

structure NetState where
  lookups : ℕ
  events : List NetEvent

/-! ## Validation -/

section Definitions

variable (urls : UrlFunctions) (dns : Resolver) (servers : Servers)

def invalidPort : NetError := .valueError "Invalid outbound URL port"

def privateDestination : NetError := .valueError "Private outbound destinations are not allowed"

def unableToResolve : NetError := .valueError "Unable to resolve outbound host"

/-- The checks of `validate_outbound_url` before the lookup, with the host to be looked up. -/
def outboundHost (value : String) : Except NetError String := do
  raiseIf (2048 < value.length) (.valueError "Invalid outbound URL")
  let parsed ← urls.urlsplit (stripped value)
  raiseIf (lower parsed.scheme ∉ ["http", "https"] ∨ parsed.hostname.getD "" = "")
    (.valueError "Outbound URL must use http or https")
  raiseIf (parsed.username.getD "" ≠ "" ∨ parsed.password.getD "" ≠ "")
    (.valueError "Outbound URL credentials are not allowed")
  let hostname := lower (String.ofList ((parsed.hostname.getD "").toList.rdropWhile (· = '.')))
  raiseIf (hostname ∈ ["localhost", "localhost.localdomain"]) privateDestination
  raiseIf (parsed.port = none) invalidPort
  raiseIf (∃ port ∈ parsed.port.getD none, ¬(1 ≤ port ∧ port ≤ 65535)) invalidPort
  pure hostname

/-- The checks after the lookup. -/
def publicAddresses : Except LookupError (List IpAddress) → Except NetError (List IpAddress)
  | .error .osError => .error unableToResolve
  | .error (.unicodeError message) => .error (.valueError message)
  | .ok addresses =>
      if addresses = [] then .error unableToResolve
      else if ∀ address ∈ addresses, address.isGlobal = true then .ok addresses
      else .error privateDestination

/-- `validate_outbound_url`. -/
def validateOutboundUrl (value : String) (s : NetState) : Except NetError String × NetState :=
  match outboundHost urls value with
  | .error e => (.error e, s)
  | .ok host =>
      match publicAddresses (dns s.lookups host) with
      | .error e => (.error e, { s with lookups := s.lookups + 1 })
      | .ok addresses =>
          (.ok (stripped value), ⟨s.lookups + 1, s.events ++ [.validated value addresses]⟩)

/-! ## Requests -/

/-- One request of the HTTP client. It opens a connection of its own: it resolves the host and
takes the first address that accepts. -/
def sendRequest (url : String) (s : NetState) : Except NetError HttpReply × NetState :=
  match urls.clientHost url with
  | none => (.error .other, s)
  | some host =>
      match dns s.lookups host with
      | .error _ => (.error .other, { s with lookups := s.lookups + 1 })
      | .ok answer =>
          match answer.findSome? fun a => (servers s.lookups a).map (a, ·) with
          | none => (.error .other, { s with lookups := s.lookups + 1 })
          | some (address, reply) =>
              (.ok reply, ⟨s.lookups + 1, s.events ++ [.sent url address]⟩)

inductive ToolOutcome where
  | skipped (reason : String)
  | success (response : HttpReply)
  | error
deriving DecidableEq, Repr

/-- The URL in `tool.implementation`. -/
def toolUrl (implementation : String) : Option String :=
  if startsWith implementation "http://" ∨ startsWith implementation "https://" then
    some implementation
  else if startsWith implementation "webhook://" then
    some (String.ofList (implementation.toList.drop 10))
  else none

/-- `execute_tool`. -/
def executeTool (tool : ToolRow) (s : NetState) : ToolOutcome × NetState :=
  let implementation := stripped (tool.implementation.getD "")
  if implementation = "" then (.skipped "no_implementation", s)
  else
    match toolUrl implementation with
    | none => (.skipped "unsupported_implementation", s)
    | some url =>
        match validateOutboundUrl urls dns url s with
        | (.error _, s) => (.error, s)
        | (.ok safeUrl, s) =>
            match sendRequest urls dns servers safeUrl s with
            | (.error _, s) => (.error, s)
            | (.ok response, s) =>
                (if response.decodes then .success response else .error, s)

/-- `_validate_public_url`. -/
def validatePublicUrl (url : String) (s : NetState) : Except NetError String × NetState :=
  match validateOutboundUrl urls dns url s with
  | (.error (.valueError message), s) =>
      (.error (.valueError (if isInfix "Private outbound destinations" message then
        "Private or local website addresses are not allowed" else message)), s)
  | result => result

def maxResponseBytes : ℕ := 2000000

def redirectedTooManyTimes : NetError := .valueError "Website redirected too many times"

/-- The loop of `_fetch`, for a number of hops. -/
def fetchHops : ℕ → String → NetState → Except NetError HttpReply × NetState
  | 0, _, s => (.error redirectedTooManyTimes, s)
  | hops + 1, current, s =>
      match validatePublicUrl urls dns current s with
      | (.error e, s) => (.error e, s)
      | (.ok _, s) =>
          match sendRequest urls dns servers current s with
          | (.error e, s) => (.error e, s)
          | (.ok response, s) =>
              if response.isRedirect then
                if response.location.getD "" = "" then (.error redirectedTooManyTimes, s)
                else
                  match urls.urljoin current (response.location.getD "") with
                  | .error e => (.error e, s)
                  | .ok next => fetchHops hops next s
              else if response.isSuccess = false then (.error .other, s)
              else if maxResponseBytes < response.contentLength then
                (.error (.valueError "Website response is too large"), s)
              else (.ok response, s)

/-- `WebsiteConnector._fetch`. -/
def fetch (url : String) (s : NetState) : Except NetError HttpReply × NetState :=
  fetchHops urls dns servers 6 url s

end Definitions

/-! ## Validated addresses -/

/-- Each request connects to an address that the validation of its URL has found, all of
which are globally routable. -/
def ReachesValidated (events : List NetEvent) : Prop :=
  ∀ before url address after, events = before ++ .sent url address :: after →
    ∃ value addresses, .validated value addresses ∈ before ∧ stripped value = stripped url ∧
      address ∈ addresses ∧ ∀ a ∈ addresses, a.isGlobal = true

/-- The lookup that the client makes for a validated URL has no address that the lookup of
the validation did not have. -/
def NeverRebinds (urls : UrlFunctions) (dns : Resolver) : Prop :=
  ∀ time url host addresses client answer, outboundHost urls url = .ok host →
    publicAddresses (dns time host) = .ok addresses → urls.clientHost url = some client →
      dns (time + 1) client = .ok answer → ∀ a ∈ answer, a ∈ addresses

theorem reachesValidated_nil : ReachesValidated [] := by
  intro before url address after h
  simp at h

theorem ReachesValidated.append {events : List NetEvent} (h : ReachesValidated events)
    {e : NetEvent} (he : ∀ url address, e = .sent url address →
      ∃ value addresses, .validated value addresses ∈ events ∧ stripped value = stripped url ∧
        address ∈ addresses ∧ ∀ a ∈ addresses, a.isGlobal = true) :
    ReachesValidated (events ++ [e]) := by
  intro before url address after hsplit
  rcases List.eq_nil_or_concat after with rfl | ⟨after, last, rfl⟩
  · obtain ⟨rfl, hlast⟩ := List.append_inj' hsplit rfl
    exact he url address (by simpa using hlast)
  · have hinit : events ++ [e] = (before ++ .sent url address :: after) ++ [last] := by
      simp [hsplit]
    obtain ⟨hevents, -⟩ := List.append_inj' hinit rfl
    exact h before url address after hevents

theorem publicAddresses_eq_ok {answer : Except LookupError (List IpAddress)}
    {addresses : List IpAddress} (h : publicAddresses answer = .ok addresses) :
    answer = .ok addresses ∧ ∀ a ∈ addresses, a.isGlobal = true := by
  rcases answer with (_ | message) | found
  · cases h
  · cases h
  · simp only [publicAddresses] at h
    split_ifs at h with hempty hglobal
    obtain rfl := Except.ok.inj h
    exact ⟨rfl, hglobal⟩

section Requests

variable {urls : UrlFunctions} {dns : Resolver} {servers : Servers}

/-- Validation looks at the stripped URL. -/
theorem outboundHost_stripped {value host : String} (h : outboundHost urls value = .ok host) :
    outboundHost urls (stripped value) = .ok host := by
  unfold outboundHost at h ⊢
  obtain ⟨_, hlength, h⟩ := bind_eq_ok.mp h
  rw [stripped_stripped]
  have hshort : ¬2048 < (stripped value).length := by
    have hle := length_stripped_le value
    have hvalue := raiseIf_eq_ok.mp hlength
    omega
  exact bind_eq_ok.mpr ⟨(), raiseIf_eq_ok.mpr hshort, h⟩

/-- What an accepted URL leaves behind. -/
theorem validateOutboundUrl_spec (urls : UrlFunctions) (dns : Resolver) (value : String)
    (s : NetState) :
    (∃ host addresses, outboundHost urls value = .ok host ∧
      publicAddresses (dns s.lookups host) = .ok addresses ∧
        validateOutboundUrl urls dns value s =
          (.ok (stripped value), ⟨s.lookups + 1, s.events ++ [.validated value addresses]⟩)) ∨
      ∃ e, (validateOutboundUrl urls dns value s).1 = .error e ∧
        (validateOutboundUrl urls dns value s).2.events = s.events := by
  unfold validateOutboundUrl
  cases hhost : outboundHost urls value with
  | error e => exact .inr ⟨e, rfl, rfl⟩
  | ok host =>
      dsimp only
      cases hpublic : publicAddresses (dns s.lookups host) with
      | error e => exact .inr ⟨e, rfl, rfl⟩
      | ok addresses => exact .inl ⟨host, addresses, rfl, hpublic, rfl⟩

theorem sendRequest_spec (urls : UrlFunctions) (dns : Resolver) (servers : Servers)
    (url : String) (s : NetState) :
    (∃ client answer address reply, urls.clientHost url = some client ∧
      dns s.lookups client = .ok answer ∧ address ∈ answer ∧
        sendRequest urls dns servers url s =
          (.ok reply, ⟨s.lookups + 1, s.events ++ [.sent url address]⟩)) ∨
      ∃ e, (sendRequest urls dns servers url s).1 = .error e ∧
        (sendRequest urls dns servers url s).2.events = s.events := by
  unfold sendRequest
  cases hclient : urls.clientHost url with
  | none => exact .inr ⟨_, rfl, rfl⟩
  | some client =>
      dsimp only
      cases hanswer : dns s.lookups client with
      | error e => exact .inr ⟨_, rfl, rfl⟩
      | ok answer =>
          dsimp only
          cases hfound : answer.findSome? fun a => (servers s.lookups a).map (a, ·) with
          | none => exact .inr ⟨_, rfl, rfl⟩
          | some found =>
              obtain ⟨address, reply⟩ := found
              obtain ⟨a, ha, hserved⟩ := List.exists_of_findSome?_eq_some hfound
              obtain ⟨_, -, hpair⟩ := Option.map_eq_some_iff.mp hserved
              obtain ⟨rfl, rfl⟩ := Prod.mk.inj hpair
              exact .inl ⟨client, answer, a, _, rfl, hanswer, ha, rfl⟩

/-- A request right after the validation of its URL. -/
theorem reachesValidated_sendRequest (servers : Servers) (hdns : NeverRebinds urls dns)
    {value url : String} {s s' : NetState} {safeUrl : String} (hs : ReachesValidated s.events)
    (hvalid : validateOutboundUrl urls dns value s = (.ok safeUrl, s'))
    (hurl : url = value ∨ url = stripped value) :
    ReachesValidated (sendRequest urls dns servers url s').2.events := by
  rcases validateOutboundUrl_spec urls dns value s with
    ⟨host, addresses, hhost, hpublic, hstate⟩ | ⟨e, herror, -⟩
  · obtain ⟨-, rfl⟩ := Prod.mk.inj (hvalid.symm.trans hstate)
    obtain ⟨-, hglobal⟩ := publicAddresses_eq_ok hpublic
    have hs' : ReachesValidated (s.events ++ [.validated value addresses]) :=
      hs.append (by rintro _ _ ⟨⟩)
    have hurlHost : outboundHost urls url = .ok host := by
      rcases hurl with rfl | rfl
      · exact hhost
      · exact outboundHost_stripped hhost
    have hstripped : stripped value = stripped url := by
      rcases hurl with rfl | rfl
      · rfl
      · exact (stripped_stripped value).symm
    rcases sendRequest_spec urls dns servers url
        ⟨s.lookups + 1, s.events ++ [.validated value addresses]⟩ with
      ⟨client, answer, address, reply, hclient, hanswer, haddress, hsent⟩ | ⟨e, -, hevents⟩
    · rw [hsent]
      refine hs'.append ?_
      rintro _ _ ⟨⟩
      exact ⟨value, addresses, by simp, hstripped,
        hdns _ url host addresses client answer hurlHost hpublic hclient hanswer address haddress,
        hglobal⟩
    · rw [hevents]
      exact hs'
  · rw [hvalid] at herror
    cases herror

theorem validateOutboundUrl_events {value : String} {s s' : NetState} {e : NetError}
    (h : validateOutboundUrl urls dns value s = (.error e, s')) : s'.events = s.events := by
  rcases validateOutboundUrl_spec urls dns value s with
    ⟨_, _, -, -, hstate⟩ | ⟨_, -, hevents⟩
  · rw [h] at hstate
    cases hstate
  · rwa [h] at hevents

theorem validateOutboundUrl_value {value safeUrl : String} {s s' : NetState}
    (h : validateOutboundUrl urls dns value s = (.ok safeUrl, s')) :
    safeUrl = stripped value := by
  rcases validateOutboundUrl_spec urls dns value s with
    ⟨_, _, -, -, hstate⟩ | ⟨_, herror, -⟩
  · rw [h] at hstate
    exact Except.ok.inj (Prod.mk.inj hstate).1
  · rw [h] at herror
    cases herror

theorem reachesValidated_executeTool (hdns : NeverRebinds urls dns) (tool : ToolRow)
    {s : NetState} (hs : ReachesValidated s.events) :
    ReachesValidated (executeTool urls dns servers tool s).2.events := by
  unfold executeTool
  dsimp only
  split_ifs with hempty
  · exact hs
  cases hurl : toolUrl (stripped (tool.implementation.getD "")) with
  | none => exact hs
  | some url =>
      dsimp only
      rcases hvalid : validateOutboundUrl urls dns url s with ⟨_ | safeUrl, s'⟩
      · dsimp only
        rwa [validateOutboundUrl_events hvalid]
      · have hsent := reachesValidated_sendRequest servers hdns hs hvalid
          (.inr (validateOutboundUrl_value hvalid))
        dsimp only
        rcases hreply : sendRequest urls dns servers safeUrl s' with ⟨_ | response, s''⟩
        · rwa [hreply] at hsent
        · rwa [hreply] at hsent

/-- `_validate_public_url` changes the text of an error only. -/
theorem validatePublicUrl_spec (urls : UrlFunctions) (dns : Resolver) (url : String)
    (s : NetState) :
    (∃ value, (validateOutboundUrl urls dns url s).1 = .ok value ∧
        validatePublicUrl urls dns url s =
          (.ok value, (validateOutboundUrl urls dns url s).2)) ∨
      ∃ e, (validatePublicUrl urls dns url s).1 = .error e ∧
        (validatePublicUrl urls dns url s).2.events = s.events := by
  rcases hvalid : validateOutboundUrl urls dns url s with ⟨(message | _) | value, s'⟩
  · exact .inr ⟨_, by rw [validatePublicUrl, hvalid],
      by rw [validatePublicUrl, hvalid]; exact validateOutboundUrl_events hvalid⟩
  · exact .inr ⟨_, by rw [validatePublicUrl, hvalid],
      by rw [validatePublicUrl, hvalid]; exact validateOutboundUrl_events hvalid⟩
  · exact .inl ⟨value, rfl, by rw [validatePublicUrl, hvalid]⟩

/-- The induction is on the number of hops left: each hop validates its own URL and sends
its request right after that. -/
theorem reachesValidated_fetchHops (hdns : NeverRebinds urls dns) (hops : ℕ) (current : String)
    {s : NetState} (hs : ReachesValidated s.events) :
    ReachesValidated (fetchHops urls dns servers hops current s).2.events := by
  induction hops generalizing current s with
  | zero => exact hs
  | succ hops ih =>
      unfold fetchHops
      rcases validatePublicUrl_spec urls dns current s with
        ⟨value, hvalid, hpublic⟩ | ⟨e, herror, hevents⟩
      · have hsent := reachesValidated_sendRequest servers hdns hs
          (Prod.ext hvalid rfl) (.inl rfl)
        rw [hpublic]
        dsimp only
        rcases hreply : sendRequest urls dns servers current
          (validateOutboundUrl urls dns current s).2 with ⟨e | response, s'⟩
        · rwa [hreply] at hsent
        · rw [hreply] at hsent
          dsimp only at hsent ⊢
          split_ifs with hredirect hlocation hsuccess hlarge
          · exact hsent
          · cases urls.urljoin current (response.location.getD "") with
            | error e => exact hsent
            | ok next => exact ih next hsent
          · exact hsent
          · exact hsent
          · exact hsent
      · rcases hresult : validatePublicUrl urls dns current s with ⟨_ | value, s'⟩
        · rw [hresult] at hevents
          exact hevents ▸ hs
        · rw [hresult] at herror
          cases herror

end Requests

/-! ## Necessity -/

/-- A server that takes connections at one address only. -/
def serverAt (address : IpAddress) : Servers := fun _ a =>
  if a = address then some { isRedirect := false, isSuccess := true } else none

theorem findSome?_serverAt {address : IpAddress} {answer : List IpAddress}
    (h : address ∈ answer) (time : ℕ) :
    answer.findSome? (fun a => (serverAt address time a).map (a, ·)) =
      some (address, { isRedirect := false, isSuccess := true }) := by
  induction answer with
  | nil => cases h
  | cons a answer ih =>
      by_cases ha : a = address
      · subst ha
        simp [serverAt]
      · have hrest : address ∈ answer := (List.mem_cons.mp h).resolve_left (Ne.symm ha)
        simpa [List.findSome?_cons, serverAt, ha] using ih hrest

/-- The events of a fetch whose client's lookup answers with an address of the server. -/
theorem fetch_events {urls : UrlFunctions} {dns : Resolver} {time : ℕ} {url host client : String}
    {addresses answer : List IpAddress} {address : IpAddress}
    (hhost : outboundHost urls url = .ok host)
    (hpublic : publicAddresses (dns time host) = .ok addresses)
    (hclient : urls.clientHost url = some client) (hanswer : dns (time + 1) client = .ok answer)
    (haddress : address ∈ answer) :
    (fetch urls dns (serverAt address) url ⟨time, []⟩).2.events =
      [.validated url addresses, .sent url address] := by
  simp [fetch, fetchHops, validatePublicUrl, validateOutboundUrl, sendRequest, hhost, hpublic,
    hclient, hanswer, findSome?_serverAt haddress]

/-- The requests of every tool and of every website reach validated addresses, whatever the
servers answer, exactly if no lookup of the client adds an address to that of the
validation. -/
theorem requests_reachValidated_iff (urls : UrlFunctions) (dns : Resolver) :
    (∀ servers time,
      (∀ tool, ReachesValidated (executeTool urls dns servers tool ⟨time, []⟩).2.events) ∧
        ∀ url, ReachesValidated (fetch urls dns servers url ⟨time, []⟩).2.events) ↔
      NeverRebinds urls dns := by
  constructor
  · intro h time url host addresses client answer hhost hpublic hclient hanswer address haddress
    have hfetch := (h (serverAt address) time).2 url
    rw [fetch_events hhost hpublic hclient hanswer haddress] at hfetch
    obtain ⟨_, found, hvalidated, -, hfound, -⟩ :=
      hfetch [.validated url addresses] url address [] rfl
    obtain ⟨-, rfl⟩ := NetEvent.validated.inj (List.mem_singleton.mp hvalidated)
    exact hfound
  · intro hdns servers time
    exact ⟨fun tool => reachesValidated_executeTool hdns tool reachesValidated_nil,
      fun url => reachesValidated_fetchHops hdns 6 url reachesValidated_nil⟩

/-! ## A host that changes its address -/

def rebindingUrl : String := "http://rebind.test/"

def rebindingUrls : UrlFunctions where
  urlsplit value :=
    if value = rebindingUrl then .ok { scheme := "http", hostname := some "rebind.test" }
    else .error .other
  urljoin _ location := .ok location
  clientHost value := if value = rebindingUrl then some "rebind.test" else none

def publicServer : IpAddress := .v4 (ipv4 93 184 216 34)

def loopback : IpAddress := .v4 (ipv4 127 0 0 1)

/-- The first answer is public, each later one is the server itself. -/
def rebindingDns : Resolver := fun time _ => .ok [if time = 0 then publicServer else loopback]

/-- The lookup of the validation has a public address, and the page is then read from the
loopback address. -/
theorem fetch_readsLoopback :
    let s := (fetch rebindingUrls rebindingDns (serverAt loopback) rebindingUrl ⟨0, []⟩).2
    s.events = [.validated rebindingUrl [publicServer], .sent rebindingUrl loopback] ∧
      ¬ReachesValidated s.events := by
  have hevents : (fetch rebindingUrls rebindingDns (serverAt loopback) rebindingUrl
      ⟨0, []⟩).2.events =
        [.validated rebindingUrl [publicServer], .sent rebindingUrl loopback] := by
    have hhost : outboundHost rebindingUrls rebindingUrl = .ok "rebind.test" := by
      decide +kernel
    have hpublic : publicAddresses (rebindingDns 0 "rebind.test") = .ok [publicServer] := by
      decide +kernel
    have hanswer : rebindingDns 1 "rebind.test" = .ok [loopback] := rfl
    exact fetch_events hhost hpublic rfl hanswer (List.mem_singleton_self loopback)
  refine ⟨hevents, fun hreaches => ?_⟩
  rw [hevents] at hreaches
  obtain ⟨_, addresses, hvalidated, -, hfound, -⟩ :=
    hreaches [.validated rebindingUrl [publicServer]] rebindingUrl loopback [] rfl
  obtain ⟨-, rfl⟩ := NetEvent.validated.inj (List.mem_singleton.mp hvalidated)
  exact absurd hfound (by decide)

end Zyntry
