import Webthings.Evcoap.ClientUri

namespace Webthings.Evcoap

def ecCoapDefaultPort : UInt16 := 5683

/-- The members of a connection that tell about a proxy. -/
structure ProxyConn where
  useProxy : Bool
  proxyAddr : List UInt8
  proxyPort : UInt16
  deriving DecidableEq, Repr

def ProxyConn.zero : ProxyConn := ⟨false, [], 0⟩

/-- The port 0 stands for the default port. -/
def proxyPortOf (port : UInt16) : UInt16 := if port = 0 then ecCoapDefaultPort else port

/-- The address has 512 bytes. -/
def ecClientSetProxy (lib : StringLibrary) (conn : ProxyConn) (host : List UInt8) (port : UInt16) : ProxyConn × Int :=
  if cString host = [] then (conn, -1)
  else
    match lib.uStrlcpy 512 host with
    | none => ({conn with proxyPort := proxyPortOf port}, -1)
    | some addr => (⟨true, addr, proxyPortOf port⟩, 0)

/-- A URI as `u_uri_crumble` splits it, along with the port that it has, if any. -/
structure TargetUri where
  parts : UUri
  port : Option Nat
  deriving DecidableEq, Repr

/-- What of a client decides where its request goes. -/
structure Addressing where
  conn : ProxyConn
  uri : TargetUri
  opts : EcOpts

/-- A proxy is set before the URI is looked at. -/
def proxiedConn (lib : StringLibrary) (proxy : Option (List UInt8 × UInt16)) : ProxyConn × Int :=
  match proxy with
  | none => (ProxyConn.zero, 0)
  | some (host, port) => ecClientSetProxy lib ProxyConn.zero host port

/-- The steps of `ec_client_new` up to the URI. -/
def ecClientNewAddressing (lib : StringLibrary) (isAbsolute : List UInt8 → Bool)
    (crumble : List UInt8 → Option TargetUri) (proxy : Option (List UInt8 × UInt16)) (uri : List UInt8) :
    Option Addressing :=
  let proxied := proxiedConn lib proxy
  if proxied.2 ≠ 0 then none
  else
    match crumble uri with
    | none => none
    | some u =>
        let added := ecClientUriOpts isAbsolute proxied.1.useProxy uri u.parts ecOptsInit
        if added.2 ≠ 0 then none else some ⟨proxied.1, u, added.1⟩

/-- The user adds options to the request before it goes out. -/
def Addressing.adding (order : ByteOrder) (isAbsolute : List UInt8 → Bool) (client : Addressing) (call : AddCall) :
    Addressing := {client with opts := (call.apply order isAbsolute client.opts).1}

/-- The name and the port that `ec_client_go` asks the resolver for. -/
def ecClientGoDestination (order : ByteOrder) (client : Addressing) : Option (List UInt8 × List UInt8) :=
  if client.conn.useProxy then some (client.conn.proxyAddr, decimalText client.conn.proxyPort.toNat)
  else if client.uri.parts.host = [] then none
  else
    let port := match ecOptsGetUriPort order client.opts with
      | none => ecCoapDefaultPort
      | some port => port
    some (client.uri.parts.host, decimalText port.toNat)

/-- The port of the Uri-Port option that the user has added, by default that of the protocol. -/
def userPort (order : ByteOrder) (client : Addressing) : Nat :=
  ((ecOptsGetUriPort order client.opts).getD ecCoapDefaultPort).toNat

/-- The destination that the caller of `ec_client_new` has asked for: the proxy, or the host and the port of the URI. -/
def requestedDestination (order : ByteOrder) (proxy : Option (List UInt8 × UInt16)) (client : Addressing) :
    List UInt8 × List UInt8 :=
  match proxy with
  | some (host, port) => (cString host, decimalText (proxyPortOf port).toNat)
  | none => (client.uri.parts.host, decimalText (client.uri.port.getD (userPort order client)))

/-- The members of the connection for a proxy that was given. -/
def givenProxy (proxy : Option (List UInt8 × UInt16)) : ProxyConn :=
  match proxy with
  | none => ProxyConn.zero
  | some (host, port) => ⟨true, cString host, proxyPortOf port⟩

theorem proxiedConn_set {lib : StringLibrary} (lawful : lib.Lawful) {proxy : Option (List UInt8 × UInt16)}
    (set : (proxiedConn lib proxy).2 = 0) : (proxiedConn lib proxy).1 = givenProxy proxy := by
  cases proxy with
  | none => rfl
  | some given =>
      obtain ⟨host, port⟩ := given
      unfold proxiedConn at set ⊢
      dsimp only at set ⊢
      unfold ecClientSetProxy at set ⊢
      split at set
      · cases set
      · rename_i named
        rw [if_neg named]
        cases copied : lib.uStrlcpy 512 host with
        | none =>
            rw [copied] at set
            cases set
        | some addr =>
            rw [lawful.copied copied]
            rfl

/-- An accepted URI has a host, and leaves the Uri-Port to the user. -/
theorem ecClientUriOpts_accepted {isAbsolute : List UInt8 → Bool} {useProxy : Bool} {uri : List UInt8} {u : UUri}
    {opts : EcOpts} (accepted : (ecClientUriOpts isAbsolute useProxy uri u opts).2 = 0) :
    u.host ≠ [] ∧
      ecOptsGet (ecClientUriOpts isAbsolute useProxy uri u opts).1 .uriPort = ecOptsGet opts .uriPort := by
  refine ⟨fun empty => ?_, ecClientUriOpts_spares isAbsolute useProxy uri u opts .uriPort (by unfold UriSym; decide)⟩
  unfold ecClientUriOpts at accepted
  rw [if_pos (Or.inr empty)] at accepted
  cases accepted

section Created

variable {lib : StringLibrary} {order : ByteOrder} {isAbsolute : List UInt8 → Bool} {crumble : List UInt8 → Option TargetUri}
  {proxy : Option (List UInt8 × UInt16)} {uri : List UInt8} {client : Addressing}

/-- What the creation of a client leaves. -/
theorem ecClientNewAddressing_some (lawful : lib.Lawful)
    (created : ecClientNewAddressing lib isAbsolute crumble proxy uri = some client) :
    crumble uri = some client.uri ∧ client.uri.parts.host ≠ [] ∧ ecOptsGet client.opts .uriPort = none ∧
      client.conn = givenProxy proxy := by
  unfold ecClientNewAddressing at created
  dsimp only at created
  split at created
  · cases created
  · rename_i set
    cases split : crumble uri with
    | none =>
        rw [split] at created
        cases created
    | some u =>
        rw [split] at created
        dsimp only at created
        split at created
        · cases created
        · rename_i accepted
          cases created
          obtain ⟨hosted, port⟩ := ecClientUriOpts_accepted (not_not.mp accepted)
          exact ⟨rfl, hosted, port.trans rfl, proxiedConn_set lawful (not_not.mp set)⟩

/-- Added options change neither the proxy nor the URI. -/
theorem Addressing.adding_kept (calls : List AddCall) (client : Addressing) :
    (calls.foldl (Addressing.adding order isAbsolute) client).conn = client.conn ∧
      (calls.foldl (Addressing.adding order isAbsolute) client).uri = client.uri := by
  induction calls generalizing client with
  | nil => exact ⟨rfl, rfl⟩
  | cons call calls inductionHypothesis => exact inductionHypothesis (client.adding order isAbsolute call)

/-- A request goes where it should unless it goes without proxy to a URI with a port other than the one of the options. -/
theorem ecClientGoDestination_iff (lawful : lib.Lawful)
    (created : ecClientNewAddressing lib isAbsolute crumble proxy uri = some client) (calls : List AddCall) :
    ecClientGoDestination order (calls.foldl (Addressing.adding order isAbsolute) client) =
        some (requestedDestination order proxy (calls.foldl (Addressing.adding order isAbsolute) client)) ↔
      (proxy = none → ∀ port, client.uri.port = some port →
        port = userPort order (calls.foldl (Addressing.adding order isAbsolute) client)) := by
  obtain ⟨_, hosted, _, conn⟩ := ecClientNewAddressing_some lawful created
  obtain ⟨connKept, uriKept⟩ : (calls.foldl (Addressing.adding order isAbsolute) client).conn = client.conn ∧ _ :=
    Addressing.adding_kept calls client
  generalize calls.foldl (Addressing.adding order isAbsolute) client = final at connKept uriKept ⊢
  rw [← uriKept] at hosted ⊢
  rw [conn] at connKept
  unfold ecClientGoDestination requestedDestination
  rw [connKept]
  cases proxy with
  | some given =>
      refine iff_of_true ?_ fun impossible => ?_
      · rfl
      · cases impossible
  | none =>
      have sent : (match ecOptsGetUriPort order final.opts with
          | none => ecCoapDefaultPort
          | some port => port).toNat = userPort order final := by
        unfold userPort
        cases ecOptsGetUriPort order final.opts <;> rfl
      rw [if_neg (by decide), if_neg hosted]
      simp only [sent, Option.some.injEq, Prod.mk.injEq, true_and, forall_const]
      constructor
      · intro same port given
        rw [given] at same
        exact (decimalText_injective same).symm
      · intro agrees
        cases given : final.uri.port with
        | none => rfl
        | some port => rw [agrees port given, Option.getD_some]

end Created

/-- The URI `coap://m/a` or the same with a port. -/
def moteTarget (port : Option Nat) : TargetUri := ⟨moteUri [47, 97] [], port⟩

/-- A URI without port is asked for at the port that the user has added. -/
theorem addedPort_reached :
    ∃ client, ecClientNewAddressing boundedStrings (fun _ => true) (fun _ => some (moteTarget none)) none [] =
        some client ∧
      ecClientGoDestination .little ([AddCall.uriPort 61616].foldl (Addressing.adding .little fun _ => true) client) =
        some (requestedDestination .little none
          ([AddCall.uriPort 61616].foldl (Addressing.adding .little fun _ => true) client)) := by
  have created : ecClientNewAddressing boundedStrings (fun _ => true) (fun _ => some (moteTarget none)) none [] =
      some ⟨ProxyConn.zero, moteTarget none, moteOpts [47, 97] []⟩ := rfl
  refine ⟨_, created, (ecClientGoDestination_iff boundedStrings_lawful created [AddCall.uriPort 61616]).mpr
    fun _ port given => ?_⟩
  cases given

/-- The port of `coap://m:5684/a` is not reached. -/
theorem givenPort_missed : ¬ ∀ (lib : StringLibrary) order isAbsolute crumble proxy uri client, ∀ calls : List AddCall,
    lib.Lawful → ecClientNewAddressing lib isAbsolute crumble proxy uri = some client →
      ecClientGoDestination order (calls.foldl (Addressing.adding order isAbsolute) client) =
        some (requestedDestination order proxy (calls.foldl (Addressing.adding order isAbsolute) client)) := by
  intro always
  have reached := always boundedStrings .little (fun _ => true) (fun _ => some (moteTarget (some 5684))) none []
    ⟨ProxyConn.zero, moteTarget (some 5684), moteOpts [47, 97] []⟩ [] boundedStrings_lawful rfl
  exact absurd reached (by decide)

end Webthings.Evcoap
