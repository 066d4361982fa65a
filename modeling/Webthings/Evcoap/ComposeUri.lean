import Webthings.Evcoap.Dups
import Webthings.Evcoap.Options.Frame
import Webthings.Evcoap.Options.RoundTrip
import Mathlib.Data.List.TakeWhile

namespace Webthings.Evcoap

/-- What is printed of an unsigned integer. -/
def decimalText (n : Nat) : List UInt8 := (Nat.toDigits 10 n).map fun c => c.toNat.toUInt8

/-- A digit is one byte. -/
theorem digit_byte {c : Char} (digit : c.isDigit = true) :
    48 ≤ c.toNat ∧ c.toNat ≤ 57 ∧ c.toNat.toUInt8.toNat = c.toNat := by
  have bounds : 48 ≤ c.toNat ∧ c.toNat ≤ 57 := by
    simpa [Char.isDigit, UInt32.le_iff_toNat_le] using digit
  refine ⟨bounds.1, bounds.2, ?_⟩
  change c.toNat % 2 ^ 8 = c.toNat
  omega

theorem decimalText_digits (n : Nat) : ∀ byte ∈ decimalText n, 48 ≤ byte ∧ byte ≤ 57 := by
  intro byte member
  obtain ⟨c, digit, rfl⟩ := List.mem_map.mp member
  obtain ⟨least, most, whole⟩ := digit_byte (decimal_digits n c digit)
  rw [UInt8.le_iff_toNat_le, UInt8.le_iff_toNat_le, whole]
  exact ⟨least, most⟩

theorem decimalText_ne_nil (n : Nat) : decimalText n ≠ [] := by
  intro empty
  exact Nat.toDigits_ne_nil (List.map_eq_nil_iff.mp empty)

theorem decimalText_injective {m n : Nat} (same : decimalText m = decimalText n) : m = n := by
  have back : ∀ k, (decimalText k).map (fun byte => Char.ofNat byte.toNat) = Nat.toDigits 10 k := by
    intro k
    unfold decimalText
    rw [List.map_map]
    refine (List.map_congr_left fun c member => ?_).trans (List.map_id _)
    rw [Function.comp_apply, (digit_byte (decimal_digits k c member)).2.2]
    exact Char.ofNat_toNat c
  apply decimal_injective
  rw [← back m, ← back n, same]

theorem decimalText_fits {n k : Nat} (some : 0 < k) : (decimalText n).length < k + 1 ↔ n < 10 ^ k := by
  unfold decimalText
  rw [List.length_map, Nat.lt_succ_iff, Nat.length_toDigits_le_iff (by decide) some]

/-- A string without NUL is whole. -/
theorem cString_whole {s : List UInt8} (whole : 0 ∉ s) : cString s = s := by
  unfold cString
  rw [List.takeWhile_eq_self_iff]
  intro byte member
  simp only [decide_eq_true_eq]
  exact fun zero => whole (zero ▸ member)

theorem cString_nul (s : List UInt8) : 0 ∉ cString s := by
  intro member
  have nonzero := List.mem_takeWhile_imp member
  simp at nonzero

theorem cString_decimalText (n : Nat) : cString (decimalText n) = decimalText n := by
  apply cString_whole
  intro member
  exact absurd (decimalText_digits n 0 member).1 (by decide)

/-- The parts that the setters of `u_uri_t` fill, empty where none was called. -/
structure UriParts where
  scheme : List UInt8
  authority : List UInt8
  host : List UInt8
  port : List UInt8
  path : List UInt8
  query : List UInt8
  deriving DecidableEq, Repr

/-- The copies of a C string into a buffer of some size, in place of what it holds or behind it; none is an error. -/
structure StringLibrary where
  uStrlcpy : Nat → List UInt8 → Option (List UInt8)
  uStrlcat : Nat → List UInt8 → List UInt8 → Option (List UInt8)

/-- A copy succeeds when the buffer has room for it and its NUL. -/
structure StringLibrary.Lawful (lib : StringLibrary) : Prop where
  copies : ∀ size src, lib.uStrlcpy size src = if (cString src).length < size then some (cString src) else none
  joins : ∀ size dst src, lib.uStrlcat size dst src =
    if (dst ++ cString src).length < size then some (dst ++ cString src) else none

/-- What the composition of a URL takes from the libraries beside the strings: the size of each buffer, what is printed of
an address and its port, and the two directions between a URI and its parts. -/
structure UriLibrary extends StringLibrary where
  strmax : Nat
  formatSockaddrPort : SockAddr → List UInt8
  knead : UriParts → Option (List UInt8)
  crumble : List UInt8 → Option UriParts

/-- The tokens that the URL is assembled from. -/
structure UriTokens where
  host : List UInt8
  port : List UInt8
  path : List UInt8
  query : List UInt8
  authority : List UInt8

def UriTokens.init : UriTokens := ⟨[], [], [], [], []⟩

section Compose

variable (lib : UriLibrary) (order : ByteOrder) (us : SockAddr)

/-- The first option above Uri-Host brings the default of both host and port, when there is no Uri-Host so far. -/
def UriTokens.addHost (t : UriTokens) (o : EcOpt) : Option UriTokens :=
  if EcOptSym.uriHost.value ≤ o.sym.value ∧ t.host = [] ∧ t.authority = [] then
    if EcOptSym.uriHost.value < o.sym.value then
      (lib.uStrlcpy lib.strmax (lib.formatSockaddrPort us)).map fun authority => {t with authority := authority}
    else (lib.uStrlcpy lib.strmax o.value).map fun host => {t with host := host}
  else some t

/-- The port of an Internet address. -/
def sockaddrPort : Option Nat :=
  match us.family with
  | .inet6 => some us.port.toNat
  | .inet => some us.port.toNat
  | .unspec => none

/-- The first option above Uri-Port brings the default of the port. -/
def UriTokens.addPort (t : UriTokens) (o : EcOpt) : Option UriTokens :=
  if EcOptSym.uriPort.value ≤ o.sym.value ∧ t.port = [] ∧ t.authority = [] then
    match if o.sym ≠ .uriPort then sockaddrPort us else ecOptDecodeUint order o.value o.l with
    | none => none
    | some p => (lib.uStrlcpy lib.strmax (decimalText p)).map fun port => {t with port := port}
  else some t

def UriTokens.addPath (t : UriTokens) (o : EcOpt) : Option UriTokens :=
  if o.sym = .uriPath then
    (lib.uStrlcat lib.strmax t.path [47]).bind fun path =>
      (lib.uStrlcat lib.strmax path o.value).map fun path => {t with path := path}
  else some t

def UriTokens.addQuery (t : UriTokens) (o : EcOpt) : Option UriTokens :=
  if o.sym = .uriQuery then
    (if t.query ≠ [] then lib.uStrlcat lib.strmax t.query [38] else some t.query).bind fun query =>
      (lib.uStrlcat lib.strmax query o.value).map fun query => {t with query := query}
  else some t

def composeOption (t : UriTokens) (o : EcOpt) : Option UriTokens :=
  ((t.addHost lib us o).bind fun t => t.addPort lib order us o).bind fun t =>
    (t.addPath lib o).bind fun t => t.addQuery lib o

/-- The bytes of `coaps`. -/
def coapsScheme : List UInt8 := [99, 111, 97, 112, 115]

/-- The URI is assembled from the tokens, the authority taking the place of host and port. -/
def UriTokens.assemble (nosec : Bool) (t : UriTokens) : UriParts where
  scheme := if nosec then [99, 111, 97, 112] else coapsScheme
  authority := t.authority
  host := if t.authority = [] then t.host else []
  port := if t.authority = [] then t.port else []
  path := if t.path = [] then [47] else t.path
  query := t.query

def composeUri (nosec : Bool) (os : List EcOpt) : Option UriParts :=
  match os.foldlM (composeOption lib order us) UriTokens.init with
  | none => none
  | some t => if (lib.knead (t.assemble nosec)).isSome then some (t.assemble nosec) else none

/-- The fragments are put together in one buffer. -/
def proxyUriText (os : List EcOpt) : Option (List UInt8) :=
  os.foldlM (fun uri o => if o.sym = .proxyUri then lib.uStrlcat lib.strmax uri o.value else some uri) []

/-- The buffer is left to the caller along with the parts. -/
def composeProxyUri (os : List EcOpt) : Option (List UInt8 × UriParts) :=
  match proxyUriText lib os with
  | none => none
  | some uri => if uri = [] then none else (lib.crumble uri).map fun u => (uri, u)

/-- A Proxy-Uri takes precedence over the other options; the flag tells whether there was one. -/
def ecOptsComposeUrl (nosec : Bool) (opts : EcOpts) : Option (UriParts × Bool) :=
  match composeProxyUri lib opts.bundle.list with
  | some proxied => some (proxied.2, true)
  | none => (composeUri lib order us nosec opts.bundle.list).map fun u => (u, false)

end Compose

theorem StringLibrary.Lawful.copied {lib : StringLibrary} (lawful : lib.Lawful) {size : Nat} {src copied : List UInt8}
    (done : lib.uStrlcpy size src = some copied) : copied = cString src := by
  rw [lawful.copies] at done
  split at done
  · exact (Option.some.inj done).symm
  · cases done

theorem StringLibrary.Lawful.joined {lib : StringLibrary} (lawful : lib.Lawful) {size : Nat}
    {dst src joined : List UInt8} (done : lib.uStrlcat size dst src = some joined) : joined = dst ++ cString src := by
  rw [lawful.joins] at done
  split at done
  · exact (Option.some.inj done).symm
  · cases done

/-- The symbols that are not below Uri-Host are Uri-Host and those above. -/
theorem uriHost_le (sym : EcOptSym) : EcOptSym.uriHost.value ≤ sym.value ↔
    sym = .uriHost ∨ EcOptSym.uriHost.value < sym.value := by
  cases sym <;> decide

section Step

variable {lib : UriLibrary} {order : ByteOrder} {us : SockAddr} {t next : UriTokens} {o : EcOpt}

theorem UriTokens.addHost_some (lawful : lib.Lawful) (done : t.addHost lib us o = some next) :
    next = {t with
      host := if o.sym = .uriHost ∧ t.host = [] ∧ t.authority = [] then cString o.value else t.host
      authority := if EcOptSym.uriHost.value < o.sym.value ∧ t.host = [] ∧ t.authority = []
        then cString (lib.formatSockaddrPort us) else t.authority} := by
  have kinds := uriHost_le o.sym
  unfold addHost at done
  by_cases open' : t.host = [] ∧ t.authority = []
  · by_cases above : EcOptSym.uriHost.value < o.sym.value
    · have other : o.sym ≠ .uriHost := by
        intro same
        rw [same] at above
        exact absurd above (by decide)
      rw [if_pos ⟨Nat.le_of_lt above, open'⟩, if_pos above] at done
      obtain ⟨authority, copied, rfl⟩ := Option.map_eq_some_iff.mp done
      rw [if_neg (fun both => other both.1), if_pos ⟨above, open'⟩, lawful.copied copied]
    · by_cases symbol : o.sym = .uriHost
      · rw [if_pos ⟨kinds.mpr (Or.inl symbol), open'⟩, if_neg above] at done
        obtain ⟨host, copied, rfl⟩ := Option.map_eq_some_iff.mp done
        rw [if_pos ⟨symbol, open'⟩, if_neg (fun both => above both.1), lawful.copied copied]
      · rw [if_neg (fun both => (kinds.mp both.1).elim symbol above)] at done
        cases done
        rw [if_neg (fun both => symbol both.1), if_neg (fun both => above both.1)]
  · rw [if_neg (fun both => open' both.2)] at done
    cases done
    rw [if_neg (fun both => open' both.2), if_neg (fun both => open' both.2)]

/-- The port that an option stands for, its own or that of the address. -/
def optionPort (order : ByteOrder) (us : SockAddr) (o : EcOpt) : Nat :=
  if o.sym = .uriPort then bytesUint (order.arrange o.value) else us.port.toNat

theorem sockaddrPort_some {p : Nat} (known : sockaddrPort us = some p) : p = us.port.toNat := by
  unfold sockaddrPort at known
  split at known <;> cases known <;> rfl

/-- What is decoded of an option is the integer of its bytes. -/
theorem EcOpt.decodeUint_some {ui : Nat} (decoded : ecOptDecodeUint order o.value o.l = some ui)
    (uint : ecOptSym2type o.sym = .uint) : ui = bytesUint (order.arrange o.value) := by
  have whole : o.value.length = o.l := EcOpt.value_whole fun symbol => by
    rw [symbol] at uint
    cases uint
  rw [← whole] at decoded
  by_cases short : o.value.length ≤ 8
  · rw [ecOptDecodeUint_eq order o.value short] at decoded
    exact (Option.some.inj decoded).symm
  · unfold ecOptDecodeUint at decoded
    rw [if_pos (by omega)] at decoded
    cases decoded

theorem UriTokens.addPort_some (lawful : lib.Lawful) (done : t.addPort lib order us o = some next) :
    next = {t with
      port := if EcOptSym.uriPort.value ≤ o.sym.value ∧ t.port = [] ∧ t.authority = []
        then cString (decimalText (optionPort order us o)) else t.port} := by
  unfold addPort at done
  split at done
  · rename_i here
    rw [if_pos here]
    cases found : (if o.sym ≠ .uriPort then sockaddrPort us else ecOptDecodeUint order o.value o.l) with
    | none =>
        rw [found] at done
        cases done
    | some p =>
        rw [found] at done
        obtain ⟨port, copied, rfl⟩ := Option.map_eq_some_iff.mp done
        have printed : p = optionPort order us o := by
          unfold optionPort
          by_cases symbol : o.sym = .uriPort
          · rw [if_neg (not_not_intro symbol)] at found
            rw [if_pos symbol]
            exact EcOpt.decodeUint_some found (by rw [symbol]; decide)
          · rw [if_pos symbol] at found
            rw [if_neg symbol]
            exact sockaddrPort_some found
        rw [lawful.copied copied, printed]
  · rename_i elsewhere
    cases done
    rw [if_neg elsewhere]

theorem UriTokens.addPath_some (lawful : lib.Lawful) (done : t.addPath lib o = some next) :
    next = {t with path := if o.sym = .uriPath then t.path ++ 47 :: cString o.value else t.path} := by
  unfold addPath at done
  split at done
  · rename_i symbol
    obtain ⟨slashed, first, second⟩ := Option.bind_eq_some_iff.mp done
    obtain ⟨path, joined, rfl⟩ := Option.map_eq_some_iff.mp second
    rw [if_pos symbol, lawful.joined joined, lawful.joined first, List.append_assoc]
    rfl
  · rename_i other
    cases done
    rw [if_neg other]

/-- What a parameter makes of the query before it. -/
def joinQuery (query value : List UInt8) : List UInt8 := (if query ≠ [] then query ++ [38] else query) ++ value

theorem UriTokens.addQuery_some (lawful : lib.Lawful) (done : t.addQuery lib o = some next) :
    next = {t with query := if o.sym = .uriQuery then joinQuery t.query (cString o.value) else t.query} := by
  unfold addQuery at done
  split at done
  · rename_i symbol
    obtain ⟨separated, first, second⟩ := Option.bind_eq_some_iff.mp done
    obtain ⟨query, joined, rfl⟩ := Option.map_eq_some_iff.mp second
    have whole : separated = if t.query ≠ [] then t.query ++ [38] else t.query := by
      split at first
      · rename_i some'
        rw [if_pos some']
        exact lawful.joined first
      · rename_i empty
        rw [if_neg empty]
        exact (Option.some.inj first).symm
    rw [if_pos symbol, lawful.joined joined, whole]
    rfl
  · rename_i other
    cases done
    rw [if_neg other]

/-- One option: Uri-Host or the address first, then the port, and at last the path and the query. -/
structure ComposedOption (lib : UriLibrary) (order : ByteOrder) (us : SockAddr) (o : EcOpt) (t next : UriTokens) :
    Prop where
  host : next.host = if o.sym = .uriHost ∧ t.host = [] ∧ t.authority = [] then cString o.value else t.host
  authority : next.authority = if EcOptSym.uriHost.value < o.sym.value ∧ t.host = [] ∧ t.authority = []
    then cString (lib.formatSockaddrPort us) else t.authority
  port : next.port = if EcOptSym.uriPort.value ≤ o.sym.value ∧ t.port = [] ∧ next.authority = []
    then cString (decimalText (optionPort order us o)) else t.port
  path : next.path = if o.sym = .uriPath then t.path ++ 47 :: cString o.value else t.path
  query : next.query = if o.sym = .uriQuery then joinQuery t.query (cString o.value) else t.query

theorem composeOption_some (lawful : lib.Lawful) (done : composeOption lib order us t o = some next) :
    ComposedOption lib order us o t next := by
  unfold composeOption at done
  obtain ⟨ported, first, second⟩ := Option.bind_eq_some_iff.mp done
  obtain ⟨hosted, host, port⟩ := Option.bind_eq_some_iff.mp first
  obtain ⟨pathed, path, query⟩ := Option.bind_eq_some_iff.mp second
  rw [UriTokens.addQuery_some lawful query, UriTokens.addPath_some lawful path, UriTokens.addPort_some lawful port,
    UriTokens.addHost_some lawful host]
  exact ⟨rfl, rfl, rfl, rfl, rfl⟩

end Step

/-- The strings of the options of a symbol, in their order. -/
def optionTexts (sym : EcOptSym) (os : List EcOpt) : List (List UInt8) :=
  (os.filter fun o => o.sym = sym).map fun o => cString o.value

theorem optionTexts_append (sym : EcOptSym) (first second : List EcOpt) :
    optionTexts sym (first ++ second) = optionTexts sym first ++ optionTexts sym second := by
  unfold optionTexts
  rw [List.filter_append, List.map_append]

theorem optionTexts_cons (sym : EcOptSym) (o : EcOpt) (os : List EcOpt) :
    optionTexts sym (o :: os) = if o.sym = sym then cString o.value :: optionTexts sym os else optionTexts sym os := by
  unfold optionTexts
  by_cases symbol : o.sym = sym
  · rw [if_pos symbol, List.filter_cons_of_pos (by simpa using symbol), List.map_cons]
  · rw [if_neg symbol, List.filter_cons_of_neg (by simpa using symbol)]

section Walk

variable {lib : UriLibrary} {order : ByteOrder} {us : SockAddr}

/-- Each Uri-Path option appends a slash and its string to the path. -/
theorem composedPath (lawful : lib.Lawful) (os : List EcOpt) (t next : UriTokens)
    (done : os.foldlM (composeOption lib order us) t = some next) :
    next.path = t.path ++ (optionTexts .uriPath os).flatMap fun segment => 47 :: segment := by
  induction os generalizing t with
  | nil =>
      cases done
      exact (List.append_nil _).symm
  | cons o os inductionHypothesis =>
      obtain ⟨middle, first, rest⟩ := Option.bind_eq_some_iff.mp done
      rw [inductionHypothesis middle rest, (composeOption_some lawful first).path, optionTexts_cons]
      split
      · rw [List.flatMap_cons, List.append_assoc]
      · rfl

/-- The Uri-Query options are joined in their order. -/
theorem composedQuery (lawful : lib.Lawful) (os : List EcOpt) (t next : UriTokens)
    (done : os.foldlM (composeOption lib order us) t = some next) :
    next.query = (optionTexts .uriQuery os).foldl joinQuery t.query := by
  induction os generalizing t with
  | nil =>
      cases done
      rfl
  | cons o os inductionHypothesis =>
      obtain ⟨middle, first, rest⟩ := Option.bind_eq_some_iff.mp done
      rw [inductionHypothesis middle rest, (composeOption_some lawful first).query, optionTexts_cons]
      split
      · rw [List.foldl_cons]
      · rfl

/-- The first string of an Uri-Host option that is not empty. -/
def hostText (os : List EcOpt) : List UInt8 := ((optionTexts .uriHost os).find? fun host => host ≠ []).getD []

/-- The port of the first Uri-Port option, by default that of the address. -/
def portNumber (order : ByteOrder) (us : SockAddr) (os : List EcOpt) : Nat :=
  (((os.filter fun o => o.sym = .uriPort).head?).map (optionPort order us)).getD us.port.toNat

/-- What stands in the tokens of host, port and authority depends on the options that were met: a host and, as soon as
there was an option from Uri-Port on, a port; or the whole authority, as soon as there was an option above Uri-Host. -/
structure AuthorityTokens (lib : UriLibrary) (order : ByteOrder) (us : SockAddr) (os : List EcOpt) (t : UriTokens) :
    Prop where
  host : t.host = hostText os
  authority : t.authority =
    if hostText os = [] ∧ ∃ o ∈ os, EcOptSym.uriHost.value < o.sym.value then cString (lib.formatSockaddrPort us) else []
  port : t.port =
    if hostText os ≠ [] ∧ ∃ o ∈ os, EcOptSym.uriPort.value ≤ o.sym.value then decimalText (portNumber order us os) else []

theorem hostText_snoc (os : List EcOpt) (o : EcOpt) :
    hostText (os ++ [o]) =
      if hostText os ≠ [] then hostText os else if o.sym = .uriHost then cString o.value else [] := by
  unfold hostText
  rw [optionTexts_append, optionTexts_cons, List.find?_append]
  cases found : (optionTexts .uriHost os).find? fun host => host ≠ [] with
  | some host =>
      have some' : host ≠ [] := by simpa using List.find?_some found
      simp [some']
  | none =>
      by_cases symbol : o.sym = .uriHost
      · by_cases empty : cString o.value = []
        · simp [symbol, empty, optionTexts]
        · simp [symbol, empty, optionTexts]
      · simp [symbol, optionTexts]

theorem portNumber_snoc (os : List EcOpt) (o : EcOpt) :
    portNumber order us (os ++ [o]) =
      if ∃ x ∈ os, x.sym = .uriPort then portNumber order us os else optionPort order us o := by
  unfold portNumber
  rw [List.filter_append]
  cases found : os.filter (fun o => o.sym = .uriPort) with
  | nil =>
      have none : ¬ ∃ x ∈ os, x.sym = .uriPort := by
        rintro ⟨x, member, symbol⟩
        exact absurd symbol (by simpa using List.filter_eq_nil_iff.mp found x member)
      rw [if_neg none]
      by_cases symbol : o.sym = .uriPort
      · simp [symbol]
      · simp [symbol, optionPort]
  | cons first rest =>
      have member : first ∈ os.filter fun o => o.sym = .uriPort := found ▸ List.mem_cons_self
      have some' : ∃ x ∈ os, x.sym = .uriPort := ⟨first, by simpa using List.mem_filter.mp member⟩
      rw [if_pos some']
      rfl

theorem exists_snoc (os : List EcOpt) (o : EcOpt) (P : EcOpt → Prop) :
    (∃ x ∈ os ++ [o], P x) ↔ (∃ x ∈ os, P x) ∨ P o := by
  simp only [List.mem_append, List.mem_singleton, or_and_right, exists_or, exists_eq_left]

section Snoc

variable {os : List EcOpt} {t next : UriTokens} {o : EcOpt} (last : ∀ x ∈ os, x.sym.value ≤ o.sym.value)
  (tokens : AuthorityTokens lib order us os t) (composed : ComposedOption lib order us o t next)
include last tokens composed

/-- One more option while there was no host. -/
theorem AuthorityTokens.stepUnhosted (printed : cString (lib.formatSockaddrPort us) ≠ []) (hosted : hostText os = []) :
    AuthorityTokens lib order us (os ++ [o]) next := by
  have hostValue : o.sym = .uriHost → o.sym.value = EcOptSym.uriHost.value := fun symbol => by rw [symbol]
  have below : EcOptSym.uriHost.value < EcOptSym.uriPort.value := by decide
  have host : t.host = [] := tokens.host.trans hosted
  have port : t.port = [] := tokens.port.trans (if_neg fun both => both.1 hosted)
  have unported : ¬ ∃ x ∈ os ++ [o], EcOptSym.uriPort.value ≤ x.sym.value ∧ o.sym.value ≤ EcOptSym.uriHost.value := by
    rintro ⟨x, member, high, low⟩
    rcases List.mem_append.mp member with early | here
    · have most := last x early
      omega
    · rw [List.mem_singleton.mp here] at high
      omega
  by_cases high : EcOptSym.uriHost.value < o.sym.value
  · have other : o.sym ≠ .uriHost := fun symbol => by
      have low := hostValue symbol
      omega
    have still : hostText (os ++ [o]) = [] := by
      rw [hostText_snoc, if_neg (not_not_intro hosted), if_neg other]
    have authority : next.authority = cString (lib.formatSockaddrPort us) := by
      rw [composed.authority]
      by_cases met : ∃ x ∈ os, EcOptSym.uriHost.value < x.sym.value
      · have before : t.authority = cString (lib.formatSockaddrPort us) := tokens.authority.trans (if_pos ⟨hosted, met⟩)
        rw [before, if_neg fun both => printed both.2.2]
      · have before : t.authority = [] := tokens.authority.trans (if_neg fun both => met both.2)
        rw [if_pos ⟨high, host, before⟩]
    refine ⟨?_, ?_, ?_⟩
    · rw [composed.host, if_neg fun both => other both.1, still, host]
    · rw [authority, if_pos ⟨still, (exists_snoc os o _).mpr (Or.inr high)⟩]
    · rw [composed.port, authority, if_neg fun both => printed both.2.2, port, if_neg fun both => both.1 still]
  · have unmet : ¬ ∃ x ∈ os, EcOptSym.uriHost.value < x.sym.value := fun ⟨x, member, above⟩ =>
      high (Nat.lt_of_lt_of_le above (last x member))
    have authority : t.authority = [] := tokens.authority.trans (if_neg fun both => unmet both.2)
    have nextAuthority : next.authority = [] := by
      rw [composed.authority, if_neg fun both => high both.1, authority]
    refine ⟨?_, ?_, ?_⟩
    · rw [composed.host, hostText_snoc, if_neg (not_not_intro hosted), host, authority]
      simp
    · rw [nextAuthority, if_neg fun both => ((exists_snoc os o _).mp both.2).elim unmet high]
    · rw [composed.port, if_neg fun both => by omega, port, if_neg]
      rintro ⟨_, x, member, above⟩
      exact unported ⟨x, member, above, Nat.not_lt.mp high⟩

/-- One more option behind a host. -/
theorem AuthorityTokens.stepHosted (hosted : hostText os ≠ []) : AuthorityTokens lib order us (os ++ [o]) next := by
  have still : hostText (os ++ [o]) = hostText os := by rw [hostText_snoc, if_pos hosted]
  have host : t.host ≠ [] := tokens.host ▸ hosted
  have authority : t.authority = [] := tokens.authority.trans (if_neg fun both => hosted both.1)
  have nextAuthority : next.authority = [] := by
    rw [composed.authority, if_neg fun both => host both.2.1, authority]
  refine ⟨?_, ?_, ?_⟩
  · rw [composed.host, if_neg fun both => host both.2.1, still, tokens.host]
  · rw [nextAuthority, still, if_neg fun both => hosted both.1]
  · rw [composed.port, still, nextAuthority, portNumber_snoc, cString_decimalText]
    by_cases met : ∃ x ∈ os, EcOptSym.uriPort.value ≤ x.sym.value
    · have port : t.port = decimalText (portNumber order us os) := tokens.port.trans (if_pos ⟨hosted, met⟩)
      rw [port, if_neg fun both => decimalText_ne_nil _ both.2.1,
        if_pos ⟨hosted, (exists_snoc os o _).mpr (Or.inl met)⟩]
      by_cases given : ∃ x ∈ os, x.sym = .uriPort
      · rw [if_pos given]
      · -- the port came from the address, and the next option is not a Uri-Port
        have none : os.filter (fun x => x.sym = .uriPort) = [] := by
          rw [List.filter_eq_nil_iff]
          intro x member
          simpa using fun symbol => given ⟨x, member, symbol⟩
        have other : o.sym ≠ .uriPort := by
          intro symbol
          obtain ⟨x, member, high⟩ := met
          have low := last x member
          rw [symbol] at low
          refine given ⟨x, member, ?_⟩
          have same : x.sym.value = EcOptSym.uriPort.value := Nat.le_antisymm low high
          revert same
          cases x.sym <;> decide
        rw [if_neg given]
        unfold portNumber optionPort
        rw [none, if_neg other]
        rfl
    · have port : t.port = [] := tokens.port.trans (if_neg fun both => met both.2)
      rw [port]
      have given : ¬ ∃ x ∈ os, x.sym = .uriPort := fun ⟨x, member, symbol⟩ => met ⟨x, member, by rw [symbol]⟩
      rw [if_neg given]
      by_cases high : EcOptSym.uriPort.value ≤ o.sym.value
      · rw [if_pos ⟨high, rfl, rfl⟩, if_pos ⟨hosted, (exists_snoc os o _).mpr (Or.inr high)⟩]
      · rw [if_neg fun both => high both.1, if_neg fun both => ((exists_snoc os o _).mp both.2).elim met high]

end Snoc

/-- What the walk over ordered options leaves in the tokens of host, port and authority. -/
theorem composedAuthority (lawful : lib.Lawful) (printed : cString (lib.formatSockaddrPort us) ≠ []) (os : List EcOpt)
    (ordered : os.Pairwise fun a b => a.sym.value ≤ b.sym.value) (t : UriTokens)
    (done : os.foldlM (composeOption lib order us) UriTokens.init = some t) : AuthorityTokens lib order us os t := by
  induction os using List.reverseRecOn generalizing t with
  | nil =>
      cases done
      exact ⟨rfl, by simp [UriTokens.init], by simp [UriTokens.init, hostText, optionTexts]⟩
  | append_singleton os o inductionHypothesis =>
      rw [List.foldlM_append] at done
      obtain ⟨middle, first, rest⟩ := Option.bind_eq_some_iff.mp done
      obtain ⟨next, one, same⟩ := Option.bind_eq_some_iff.mp rest
      cases same
      obtain ⟨early, _, below⟩ := List.pairwise_append.mp ordered
      have last : ∀ x ∈ os, x.sym.value ≤ o.sym.value := fun x member => below x member o (List.mem_singleton_self o)
      have tokens := inductionHypothesis early middle first
      by_cases hosted : hostText os = []
      · exact AuthorityTokens.stepUnhosted last tokens (composeOption_some lawful one) printed hosted
      · exact AuthorityTokens.stepHosted last tokens (composeOption_some lawful one) hosted

end Walk

/-- The characters of a URI that has all its parts, with the separators between them. -/
def UriParts.size (url : UriParts) : Nat :=
  url.scheme.length + url.authority.length + url.host.length + url.port.length + url.path.length + url.query.length + 5

/-- The library puts a URI together that has room in its buffer. -/
def UriLibrary.Kneads (lib : UriLibrary) : Prop := ∀ url : UriParts, url.size < lib.strmax → (lib.knead url).isSome

/-- The room for the text of each option with a separator, for an address, and for a port, a scheme, the separators and
the path `/`. -/
def composedRoom (lib : UriLibrary) (us : SockAddr) (os : List EcOpt) : Nat :=
  (cString (lib.formatSockaddrPort us)).length + (os.map fun o => o.l + 1).sum + 31

/-- The address has a port, the Uri-Port options are integers, and the buffers have room. -/
structure Composable (lib : UriLibrary) (us : SockAddr) (os : List EcOpt) : Prop where
  internet : us.family ≠ .unspec
  ports : ∀ o ∈ os, o.sym = .uriPort → o.l ≤ 8
  room : composedRoom lib us os < lib.strmax

section Room

variable {lib : UriLibrary} {order : ByteOrder} {us : SockAddr} {t : UriTokens} {o : EcOpt}

/-- The texts of the tokens take no more than what has been used so far. -/
structure UriTokens.Within (lib : UriLibrary) (us : SockAddr) (used : Nat) (t : UriTokens) : Prop where
  texts : t.host.length + t.path.length + t.query.length ≤ used
  port : t.port.length ≤ 20
  authority : t.authority.length ≤ (cString (lib.formatSockaddrPort us)).length

theorem cString_value_le (o : EcOpt) : (cString o.value).length ≤ o.l :=
  Nat.le_trans (List.takeWhile_sublist _).length_le o.value_length_le

theorem UriTokens.addHost_isSome (lawful : lib.Lawful)
    (printed : (cString (lib.formatSockaddrPort us)).length < lib.strmax) (short : o.l < lib.strmax) :
    (t.addHost lib us o).isSome := by
  have value := cString_value_le o
  unfold addHost
  split
  · split
    · rw [lawful.copies, if_pos printed]
      rfl
    · rw [lawful.copies, if_pos (by omega)]
      rfl
  · rfl

/-- A port of 64 bits has at most 20 digits. -/
theorem decimalText_port {p : Nat} (port : p < 2 ^ 64) : (decimalText p).length ≤ 20 :=
  Nat.le_of_lt_succ ((decimalText_fits (by decide)).mpr (Nat.lt_of_lt_of_le port (by decide)))

theorem optionPort_lt (order : ByteOrder) (us : SockAddr) (integer : o.sym = .uriPort → o.l ≤ 8) :
    optionPort order us o < 2 ^ 64 := by
  unfold optionPort
  split
  · rename_i symbol
    apply bytesUint_lt
    have value := o.value_length_le
    have most := integer symbol
    rw [ByteOrder.arrange_length]
    omega
  · have small := us.port.toNat_lt
    omega

theorem UriTokens.addPort_isSome (lawful : lib.Lawful) (internet : us.family ≠ .unspec)
    (integer : o.sym = .uriPort → o.l ≤ 8) (room : 20 < lib.strmax) : (t.addPort lib order us o).isSome := by
  unfold addPort
  split
  · have found : (if o.sym ≠ .uriPort then sockaddrPort us else ecOptDecodeUint order o.value o.l) =
        some (optionPort order us o) := by
      unfold optionPort
      by_cases symbol : o.sym = .uriPort
      · rw [if_neg (not_not_intro symbol), if_pos symbol]
        have whole : o.value.length = o.l := EcOpt.value_whole (by rw [symbol]; decide)
        rw [← whole]
        exact ecOptDecodeUint_eq order o.value (by rw [whole]; exact integer symbol)
      · rw [if_pos symbol, if_neg symbol]
        unfold sockaddrPort
        cases family : us.family with
        | unspec => exact absurd family internet
        | inet => rfl
        | inet6 => rfl
    have digits := decimalText_port (optionPort_lt order us integer)
    rw [found]
    dsimp only
    rw [lawful.copies, cString_decimalText, if_pos (by omega)]
    rfl
  · rfl

theorem UriTokens.addPath_isSome (lawful : lib.Lawful) (room : t.path.length + (o.l + 1) < lib.strmax) :
    (t.addPath lib o).isSome := by
  have value := cString_value_le o
  have slash : cString [47] = [47] := rfl
  unfold addPath
  split
  · rw [lawful.joins, slash, if_pos (by rw [List.length_append, List.length_singleton]; omega), Option.bind_some,
      lawful.joins, if_pos (by rw [List.length_append, List.length_append, List.length_singleton]; omega)]
    rfl
  · rfl

theorem UriTokens.addQuery_isSome (lawful : lib.Lawful) (room : t.query.length + (o.l + 1) < lib.strmax) :
    (t.addQuery lib o).isSome := by
  have value := cString_value_le o
  have ampersand : cString [38] = [38] := rfl
  unfold addQuery
  split
  · split
    · rw [lawful.joins, ampersand, if_pos (by rw [List.length_append, List.length_singleton]; omega), Option.bind_some,
        lawful.joins, if_pos (by rw [List.length_append, List.length_append, List.length_singleton]; omega)]
      rfl
    · rw [Option.bind_some, lawful.joins, if_pos (by rw [List.length_append]; omega)]
      rfl
  · rfl

theorem joinQuery_length (query value : List UInt8) : (joinQuery query value).length ≤ query.length + 1 + value.length := by
  unfold joinQuery
  split
  · rw [List.length_append, List.length_append, List.length_singleton]
  · rw [List.length_append]
    omega

/-- An option that has room is put into the tokens. -/
theorem composeOption_within (lawful : lib.Lawful) (internet : us.family ≠ .unspec)
    (integer : o.sym = .uriPort → o.l ≤ 8) {used : Nat} (within : t.Within lib us used)
    (room : (cString (lib.formatSockaddrPort us)).length + used + (o.l + 1) + 20 < lib.strmax) :
    ∃ next, composeOption lib order us t o = some next ∧ next.Within lib us (used + (o.l + 1)) := by
  have texts := within.texts
  obtain ⟨hosted, host⟩ : ∃ hosted, t.addHost lib us o = some hosted :=
    Option.isSome_iff_exists.mp (UriTokens.addHost_isSome lawful (by omega) (by omega))
  obtain ⟨ported, port⟩ : ∃ ported, hosted.addPort lib order us o = some ported :=
    Option.isSome_iff_exists.mp (UriTokens.addPort_isSome lawful internet integer (by omega))
  have before : ported.path = t.path ∧ ported.query = t.query := by
    rw [UriTokens.addPort_some lawful port, UriTokens.addHost_some lawful host]
    exact ⟨rfl, rfl⟩
  obtain ⟨pathed, path⟩ : ∃ pathed, ported.addPath lib o = some pathed :=
    Option.isSome_iff_exists.mp (UriTokens.addPath_isSome lawful (by rw [before.1]; omega))
  have still : pathed.query = t.query := by
    rw [UriTokens.addPath_some lawful path]
    exact before.2
  obtain ⟨next, query⟩ : ∃ next, pathed.addQuery lib o = some next :=
    Option.isSome_iff_exists.mp (UriTokens.addQuery_isSome lawful (by rw [still]; omega))
  have done : composeOption lib order us t o = some next := by
    unfold composeOption
    rw [host, Option.bind_some, port, Option.bind_some, path, Option.bind_some, query]
  have composed := composeOption_some lawful done
  have value := cString_value_le o
  refine ⟨next, done, ?_, ?_, ?_⟩
  · -- one option brings a host, a segment of the path or a parameter of the query
    rw [composed.host, composed.path, composed.query]
    by_cases segment : o.sym = .uriPath
    · rw [if_neg (by simp [segment]), if_pos segment, if_neg (by simp [segment]), List.length_append, List.length_cons]
      omega
    · by_cases parameter : o.sym = .uriQuery
      · have joined := joinQuery_length t.query (cString o.value)
        rw [if_neg (by simp [parameter]), if_neg segment, if_pos parameter]
        omega
      · rw [if_neg segment, if_neg parameter]
        split
        · rename_i first
          rw [first.2.1, List.length_nil] at texts
          omega
        · omega
  · have digits := decimalText_port (optionPort_lt order us integer)
    rw [composed.port]
    split
    · rw [cString_decimalText]
      exact digits
    · exact within.port
  · rw [composed.authority]
    split
    · exact Nat.le_refl _
    · exact within.authority

/-- Options that have room are all put into the tokens. -/
theorem composeOptions_within (lawful : lib.Lawful) (internet : us.family ≠ .unspec) (os : List EcOpt)
    (ports : ∀ o ∈ os, o.sym = .uriPort → o.l ≤ 8) {used : Nat} (within : t.Within lib us used)
    (room : (cString (lib.formatSockaddrPort us)).length + used + (os.map fun o => o.l + 1).sum + 20 < lib.strmax) :
    ∃ last, os.foldlM (composeOption lib order us) t = some last ∧
      last.Within lib us (used + (os.map fun o => o.l + 1).sum) := by
  induction os generalizing t used with
  | nil => exact ⟨t, rfl, within⟩
  | cons o os inductionHypothesis =>
      obtain ⟨here, later⟩ := List.forall_mem_cons.mp ports
      rw [List.map_cons, List.sum_cons] at room ⊢
      obtain ⟨next, done, still⟩ : ∃ next, composeOption lib order us t o = some next ∧ next.Within lib us _ :=
        composeOption_within lawful internet here within (by omega)
      obtain ⟨last, rest, all⟩ := inductionHypothesis later still (by omega)
      rw [List.foldlM_cons, done]
      refine ⟨last, rest, ?_⟩
      rw [← Nat.add_assoc]
      exact all

/-- A URL is composed of every list of options that has room. -/
theorem composeUri_isSome (lawful : lib.Lawful) (kneads : lib.Kneads) (nosec : Bool) {os : List EcOpt}
    (composable : Composable lib us os) : (composeUri lib order us nosec os).isSome := by
  have room := composable.room
  unfold composedRoom at room
  have start : UriTokens.init.Within lib us 0 := ⟨Nat.le_refl 0, Nat.zero_le _, Nat.zero_le _⟩
  obtain ⟨t, done, within⟩ : ∃ t, os.foldlM (composeOption lib order us) UriTokens.init = some t ∧ t.Within lib us _ :=
    composeOptions_within lawful composable.internet os composable.ports start (by omega)
  have texts := within.texts
  have port := within.port
  have authority := within.authority
  have fits : (t.assemble nosec).size < lib.strmax := by
    have scheme : (t.assemble nosec).scheme.length ≤ 5 := by
      unfold UriTokens.assemble
      dsimp only
      split <;> decide
    have names : (t.assemble nosec).host.length ≤ t.host.length ∧ (t.assemble nosec).port.length ≤ t.port.length := by
      unfold UriTokens.assemble
      dsimp only
      split
      · exact ⟨Nat.le_refl _, Nat.le_refl _⟩
      · exact ⟨Nat.zero_le _, Nat.zero_le _⟩
    have path : (t.assemble nosec).path.length ≤ t.path.length + 1 := by
      unfold UriTokens.assemble
      dsimp only
      split
      · exact Nat.le_add_left 1 _
      · exact Nat.le_succ _
    have kept : (t.assemble nosec).authority = t.authority ∧ (t.assemble nosec).query = t.query := ⟨rfl, rfl⟩
    unfold UriParts.size
    rw [kept.1, kept.2]
    omega
  unfold composeUri
  rw [done]
  dsimp only
  rw [if_pos (kneads _ fits)]
  rfl

end Room

end Webthings.Evcoap
