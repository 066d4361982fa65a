import Webthings.Evcoap.ComposeUri

namespace Webthings.Evcoap

/-- The library prints an Internet address as its textual form, a colon and the port. -/
structure PrintsAddress (lib : UriLibrary) (us : SockAddr) (literal : List UInt8) : Prop where
  internet : us.family ≠ .unspec
  format : lib.formatSockaddrPort us = literal ++ 58 :: decimalText us.port.toNat
  some : literal ≠ []
  string : 0 ∉ literal

/-- The host and the port that a URL has, in fields of their own or in its authority. -/
def UriParts.Names (url : UriParts) (host : List UInt8) (port : Nat) : Prop :=
  if url.authority = [] then url.host = host ∧ url.port = decimalText port
  else url.authority = host ++ 58 :: decimalText port

/-- The host that a request is for: its first Uri-Host, or the address it was sent to. -/
def requestedHost (literal : List UInt8) (opts : EcOpts) : List UInt8 :=
  ((ecOptsGet opts .uriHost).map EcOpt.value).getD literal

/-- The port that a request is for: its first Uri-Port, or the port it was sent to. -/
def requestedPort (order : ByteOrder) (us : SockAddr) (opts : EcOpts) : Nat :=
  ((ecOptsGet opts .uriPort).map fun o => bytesUint (order.arrange o.value)).getD us.port.toNat

/-- The walk over the options meets what it takes the defaults from, and no Uri-Port is passed over. -/
def DefaultsReached (order : ByteOrder) (us : SockAddr) (opts : EcOpts) : Prop :=
  match ecOptsGet opts .uriHost with
  | none => (∃ o ∈ opts.bundle.list, EcOptSym.uriHost.value < o.sym.value) ∧
      requestedPort order us opts = us.port.toNat
  | some o => (o.value ≠ [] ∧ 0 ∉ o.value) ∧ ∃ x ∈ opts.bundle.list, EcOptSym.uriPort.value ≤ x.sym.value

/-- Host and port are found again at the last colon. -/
theorem lastColon_injective {host host' : List UInt8} {port port' : Nat}
    (same : host ++ 58 :: decimalText port = host' ++ 58 :: decimalText port') : host = host' ∧ port = port' := by
  have colon : ∀ n, (58 : UInt8) ∉ (decimalText n).reverse := by
    intro n member
    exact absurd (decimalText_digits n 58 (List.mem_reverse.mp member)).2 (by decide)
  have turned := congrArg List.reverse same
  simp only [List.reverse_append, List.reverse_cons, List.append_assoc, List.singleton_append] at turned
  obtain ⟨digits, rest⟩ := append_separator_injective 58 (colon port) (colon port') turned
  exact ⟨List.reverse_inj.mp rest, decimalText_injective (List.reverse_inj.mp digits)⟩

theorem portNumber_requested (order : ByteOrder) (us : SockAddr) (opts : EcOpts) :
    portNumber order us opts.bundle.list = requestedPort order us opts := by
  unfold portNumber requestedPort
  have first : (opts.bundle.list.filter fun o => o.sym = .uriPort).head? = ecOptsGet opts .uriPort :=
    List.head?_eq_getElem?
  rw [first]
  cases found : ecOptsGet opts .uriPort with
  | none => rfl
  | some o =>
      simp only [Option.map_some, Option.getD_some, optionPort]
      rw [if_pos (ecOptsGet_some found).1]

/-- Without a Uri-Host there is no host text. -/
theorem hostText_absent {opts : EcOpts} (absent : ecOptsGet opts .uriHost = none) : hostText opts.bundle.list = [] := by
  have none : opts.bundle.list.filter (fun o => o.sym = .uriHost) = [] := by
    have first : (opts.bundle.list.filter fun o => o.sym = .uriHost).head? = Option.none :=
      List.head?_eq_getElem?.trans absent
    exact List.head?_eq_none_iff.mp first
  unfold hostText optionTexts
  rw [none]
  rfl

/-- The first Uri-Host gives the host text unless its string is empty. -/
theorem hostText_present {opts : EcOpts} {o : EcOpt} (found : ecOptsGet opts .uriHost = some o)
    (some' : cString o.value ≠ []) : hostText opts.bundle.list = cString o.value := by
  have first : (opts.bundle.list.filter fun o => o.sym = .uriHost).head? = some o :=
    List.head?_eq_getElem?.trans found
  obtain ⟨rest, list⟩ := List.head?_eq_some_iff.mp first
  unfold hostText optionTexts
  rw [list, List.map_cons, List.find?_cons_of_pos (by simpa using some')]
  rfl

/-- The host text is a C string. -/
theorem hostText_nul (os : List EcOpt) : 0 ∉ hostText os := by
  unfold hostText optionTexts
  cases found : ((os.filter fun o => o.sym = .uriHost).map fun o => cString o.value).find? fun host => host ≠ [] with
  | none => simp
  | some host =>
      obtain ⟨o, _, rfl⟩ := List.mem_map.mp (List.mem_of_find?_eq_some found)
      exact cString_nul o.value

section Requested

variable {lib : UriLibrary} {order : ByteOrder} {us : SockAddr} {nosec : Bool} {opts : EcOpts} {url : UriParts}
  {literal : List UInt8}

theorem composeUri_tokens {os : List EcOpt} (composed : composeUri lib order us nosec os = some url) :
    ∃ t, os.foldlM (composeOption lib order us) UriTokens.init = some t ∧ url = t.assemble nosec := by
  unfold composeUri at composed
  cases done : os.foldlM (composeOption lib order us) UriTokens.init with
  | none =>
      rw [done] at composed
      cases composed
  | some t =>
      rw [done] at composed
      dsimp only at composed
      split at composed
      · exact ⟨t, rfl, (Option.some.inj composed).symm⟩
      · cases composed

section Names

variable (prints : PrintsAddress lib us literal)
include prints

/-- What is printed of an address has no NUL. -/
theorem PrintsAddress.printed : cString (lib.formatSockaddrPort us) = literal ++ 58 :: decimalText us.port.toNat := by
  rw [prints.format]
  apply cString_whole
  intro member
  rcases List.mem_append.mp member with address | port
  · exact prints.string address
  · rcases List.mem_cons.mp port with colon | digit
    · exact absurd colon (by decide)
    · exact absurd (decimalText_digits _ 0 digit).1 (by decide)

/-- Without a Uri-Host the URL has the authority that is printed of the address, or none at all. -/
theorem names_unhosted {t : UriTokens} (tokens : AuthorityTokens lib order us opts.bundle.list t)
    (absent : ecOptsGet opts .uriHost = none) (port : Nat) :
    (t.assemble nosec).Names (literal) port ↔
      (∃ o ∈ opts.bundle.list, EcOptSym.uriHost.value < o.sym.value) ∧ port = us.port.toNat := by
  have host := hostText_absent absent
  unfold UriParts.Names UriTokens.assemble
  dsimp only
  by_cases met : ∃ o ∈ opts.bundle.list, EcOptSym.uriHost.value < o.sym.value
  · have authority : t.authority = literal ++ 58 :: decimalText us.port.toNat := by
      rw [tokens.authority, if_pos ⟨host, met⟩, prints.printed]
    rw [authority, if_neg (by simp)]
    constructor
    · intro same
      exact ⟨met, (lastColon_injective same).2.symm⟩
    · intro both
      rw [both.2]
  · have authority : t.authority = [] := tokens.authority.trans (if_neg fun both => met both.2)
    rw [authority, if_pos rfl, if_pos rfl, tokens.host, host]
    constructor
    · intro both
      exact absurd both.1.symm (prints.some)
    · intro both
      exact absurd both.1 met

/-- With a Uri-Host the URL names its value when that is a string, and a port as soon as the walk has got that far. -/
theorem names_hosted {t : UriTokens} (tokens : AuthorityTokens lib order us opts.bundle.list t) {o : EcOpt}
    (found : ecOptsGet opts .uriHost = some o) :
    (t.assemble nosec).Names o.value (requestedPort order us opts) ↔
      (o.value ≠ [] ∧ 0 ∉ o.value) ∧ ∃ x ∈ opts.bundle.list, EcOptSym.uriPort.value ≤ x.sym.value := by
  have port := portNumber_requested order us opts
  unfold UriParts.Names UriTokens.assemble
  dsimp only
  by_cases text : hostText opts.bundle.list = []
  · -- there is no string for the host, and neither the address nor nothing is the value of the Uri-Host
    have empty : cString o.value = [] := by
      by_contra some'
      exact some' (hostText_present found some' ▸ text)
    have wrong : ¬ (o.value ≠ [] ∧ 0 ∉ o.value) := fun both => both.1 (cString_whole both.2 ▸ empty)
    have noPort : t.port = [] := tokens.port.trans (if_neg fun both => both.1 text)
    refine iff_of_false ?_ fun both => wrong both.1
    by_cases authority : t.authority = []
    · rw [if_pos authority, if_pos authority, if_pos authority, noPort]
      exact fun both => decimalText_ne_nil _ both.2.symm
    · have printed : t.authority = literal ++ 58 :: decimalText us.port.toNat := by
        have given := tokens.authority
        split at given
        · exact given.trans (prints.printed)
        · exact absurd given authority
      rw [if_neg authority, printed]
      intro same
      have value := (lastColon_injective same).1
      exact wrong ⟨value ▸ prints.some, value ▸ prints.string⟩
  · have authority : t.authority = [] := tokens.authority.trans (if_neg fun both => text both.1)
    rw [authority, if_pos rfl, if_pos rfl, if_pos rfl, tokens.host, tokens.port, port]
    by_cases met : ∃ x ∈ opts.bundle.list, EcOptSym.uriPort.value ≤ x.sym.value
    · rw [if_pos (⟨text, met⟩ : hostText opts.bundle.list ≠ [] ∧ _)]
      constructor
      · intro both
        exact ⟨⟨both.1 ▸ text, both.1 ▸ hostText_nul _⟩, met⟩
      · intro both
        have whole := cString_whole both.1.2
        exact ⟨(hostText_present found (by rw [whole]; exact both.1.1)).trans whole, rfl⟩
    · rw [if_neg fun both => met both.2]
      exact iff_of_false (fun both => decimalText_ne_nil _ both.2.symm) fun both => met both.2

end Names

/-- Host and port of a URL are what the request asks for exactly when the walk has met what the defaults hang on. -/
theorem composeUri_names_iff (lawful : lib.Lawful) (prints : PrintsAddress lib us literal)
    (composed : composeUri lib order us nosec opts.bundle.list = some url) :
    url.Names (requestedHost literal opts) (requestedPort order us opts) ↔ DefaultsReached order us opts := by
  obtain ⟨t, done, rfl⟩ := composeUri_tokens composed
  have tokens := composedAuthority lawful (by rw [prints.printed]; simp) opts.bundle.list opts.bundle.ordered t done
  unfold DefaultsReached
  cases found : ecOptsGet opts .uriHost with
  | none =>
      have requested : requestedHost literal opts = literal := by
        unfold requestedHost
        rw [found]
        rfl
      rw [requested]
      exact names_unhosted prints tokens found _
  | some o =>
      have requested : requestedHost literal opts = o.value := by
        unfold requestedHost
        rw [found]
        rfl
      rw [requested]
      exact names_hosted prints tokens found

end Requested

/-- An IPv4 address is printed in its dotted form, an IPv6 address in brackets. -/
def numericLiteral (us : SockAddr) : List UInt8 :=
  match us.family with
  | .inet => List.intercalate [46] (us.addr.map fun byte => decimalText byte.toNat)
  | _ => 91 :: List.intercalate [58] (us.addr.map fun byte => decimalText byte.toNat) ++ [93]

/-- The copies of a string that fits. -/
def boundedStrings : StringLibrary where
  uStrlcpy := fun size src => if (cString src).length < size then some (cString src) else none
  uStrlcat := fun size dst src => if (dst ++ cString src).length < size then some (dst ++ cString src) else none

theorem boundedStrings_lawful : boundedStrings.Lawful := ⟨fun _ _ => rfl, fun _ _ _ => rfl⟩

/-- A library that puts the parts of a URI one behind the other. -/
def numericLibrary : UriLibrary where
  toStringLibrary := boundedStrings
  strmax := 4096
  formatSockaddrPort := fun us => numericLiteral us ++ 58 :: decimalText us.port.toNat
  knead := fun url => some (url.scheme ++ [58, 47, 47] ++
    (if url.authority = [] then url.host ++ (if url.port = [] then [] else 58 :: url.port) else url.authority) ++
    url.path ++ if url.query = [] then [] else 63 :: url.query)
  crumble := fun _ => none

/-- The address 127.0.0.1 and the port 5683. -/
def localAddress : SockAddr := ⟨.inet, [127, 0, 0, 1], 5683⟩

theorem localAddress_prints : PrintsAddress numericLibrary localAddress (numericLiteral localAddress) :=
  ⟨by decide, rfl, by decide, by decide⟩

/-- A request for `/a` gets the host and the port that it was sent to. -/
theorem pathRequest_names :
    ∃ url, composeUri numericLibrary .little localAddress true (ecOptsAddUriPath ecOptsInit [97]).1.bundle.list =
        some url ∧
      url.Names (requestedHost (numericLiteral localAddress) (ecOptsAddUriPath ecOptsInit [97]).1)
        (requestedPort .little localAddress (ecOptsAddUriPath ecOptsInit [97]).1) := by
  have composed : composeUri numericLibrary .little localAddress true (ecOptsAddUriPath ecOptsInit [97]).1.bundle.list =
      some ⟨[99, 111, 97, 112], numericLiteral localAddress ++ 58 :: decimalText 5683, [], [], [47, 97], []⟩ := by decide
  exact ⟨_, composed, (composeUri_names_iff boundedStrings_lawful localAddress_prints composed).mpr ⟨by decide, by decide⟩⟩

/-- A request without any option gets a URL without host and port. -/
theorem emptyRequest_nameless : ¬ ∀ lib order us nosec literal (memory : Nat → UInt8) size count url,
    lib.Lawful → PrintsAddress lib us literal →
    ecOptsGet (ecOptsDecode ecOptsInit memory size count 0).opts .proxyUri = none →
    composeUri lib order us nosec (ecOptsDecode ecOptsInit memory size count 0).opts.bundle.list = some url →
      url.Names (requestedHost literal (ecOptsDecode ecOptsInit memory size count 0).opts)
        (requestedPort order us (ecOptsDecode ecOptsInit memory size count 0).opts) := by
  intro always
  have named := always numericLibrary .little localAddress true (numericLiteral localAddress) (fun _ => 0) 4 0
    ⟨[99, 111, 97, 112], [], [], [], [47], []⟩ boundedStrings_lawful localAddress_prints (by decide) (by decide)
  exact absurd named.1 (by decide)

end Webthings.Evcoap
