import Webthings.Evcoap.ClientRequest
import Webthings.Evcoap.RequestedUrl
import Webthings.Evcoap.ProxyUri

namespace Webthings.Evcoap

/-- The pieces between separators that are not empty, as `strsep` and the test behind it give them. -/
def separated (delimiter : UInt8) (p : List UInt8) : List (List UInt8) :=
  (p.splitOn delimiter).filter fun token => token ≠ []

/-- No piece contains the separator. -/
theorem splitOn_separator (delimiter : UInt8) (p : List UInt8) : ∀ token ∈ p.splitOn delimiter, delimiter ∉ token := by
  induction p with
  | nil =>
      intro token member
      rw [List.splitOn_nil, List.mem_singleton] at member
      rw [member]
      exact List.not_mem_nil
  | cons byte p inductionHypothesis =>
      intro token member
      rw [List.splitOn_cons_eq_if_modifyHead] at member
      by_cases separator : byte = delimiter
      · rw [if_pos (by simpa using separator)] at member
        rcases List.mem_cons.mp member with rfl | later
        · exact List.not_mem_nil
        · exact inductionHypothesis token later
      · rw [if_neg (by simpa using separator)] at member
        cases pieces : p.splitOn delimiter with
        | nil =>
            rw [pieces] at member
            exact absurd member List.not_mem_nil
        | cons first rest =>
            rw [pieces, List.modifyHead_cons] at member
            rcases List.mem_cons.mp member with rfl | later
            · intro inside
              rcases List.mem_cons.mp inside with here | further
              · exact separator here.symm
              · exact inductionHypothesis first (pieces ▸ List.mem_cons_self) further
            · exact inductionHypothesis token (pieces ▸ List.mem_cons_of_mem _ later)

theorem mem_intercalate {separator : List UInt8} {tokens : List (List UInt8)} {token : List UInt8}
    (member : token ∈ tokens) {byte : UInt8} (inside : byte ∈ token) : byte ∈ List.intercalate separator tokens := by
  induction tokens with
  | nil => cases member
  | cons first rest inductionHypothesis =>
      cases rest with
      | nil =>
          rw [List.mem_singleton.mp member] at inside
          simpa using inside
      | cons next rest =>
          rw [List.intercalate_cons_cons, List.mem_append, List.mem_append]
          rcases List.mem_cons.mp member with rfl | later
          · exact Or.inl (Or.inl inside)
          · exact Or.inr (inductionHypothesis later)

/-- Every piece comes from the string. -/
theorem splitOn_subset (delimiter : UInt8) (p : List UInt8) :
    ∀ token ∈ p.splitOn delimiter, ∀ byte ∈ token, byte ∈ p := by
  intro token member byte inside
  have whole : List.intercalate [delimiter] (p.splitOn delimiter) = p := List.intercalate_splitOn delimiter
  rw [← whole]
  exact mem_intercalate member inside

/-- Pieces with a separator in front of each. -/
theorem flatMap_cons_eq (delimiter : UInt8) (tokens : List (List UInt8)) (some : tokens ≠ []) :
    (tokens.flatMap fun token => delimiter :: token) = delimiter :: List.intercalate [delimiter] tokens := by
  induction tokens with
  | nil => exact absurd rfl some
  | cons token tokens inductionHypothesis =>
      cases tokens with
      | nil => simp
      | cons next rest =>
          rw [List.flatMap_cons, inductionHypothesis (by simp), List.intercalate_cons_cons]
          simp

/-- Parameters behind a query that is not empty. -/
theorem joinQuery_behind (params : List (List UInt8)) (query : List UInt8) (some : query ≠ []) :
    params.foldl joinQuery query = query ++ params.flatMap fun param => 38 :: param := by
  induction params generalizing query with
  | nil => exact (List.append_nil query).symm
  | cons param params inductionHypothesis =>
      have joined : joinQuery query param = query ++ 38 :: param := by
        unfold joinQuery
        rw [if_pos some, List.append_assoc]
        rfl
      rw [List.foldl_cons, joined, inductionHypothesis _ (by simp), List.flatMap_cons, List.append_assoc]

/-- Parameters that are not empty are joined with the separator between them. -/
theorem joinQuery_eq (params : List (List UInt8)) (some : ∀ param ∈ params, param ≠ []) :
    params.foldl joinQuery [] = List.intercalate [38] params := by
  cases params with
  | nil => rfl
  | cons param params =>
      have first : joinQuery [] param = param := rfl
      rw [List.foldl_cons, first, joinQuery_behind params param (some param List.mem_cons_self)]
      cases params with
      | nil => simp
      | cons next rest => rw [flatMap_cons_eq 38 (next :: rest) (by simp), List.intercalate_cons_cons]; simp

/-- A path that the split and the join leave as it is. -/
def KeptPath (p : List UInt8) : Prop :=
  p = [] ∨ p = [47] ∨ ∃ rest, p = 47 :: rest ∧ [] ∉ rest.splitOn 47

def KeptQuery (q : List UInt8) : Prop := q = [] ∨ [] ∉ q.splitOn 38

theorem separated_some (delimiter : UInt8) (p : List UInt8) : ∀ token ∈ separated delimiter p, token ≠ [] := by
  intro token member
  simpa using (List.mem_filter.mp member).2

/-- Nothing is dropped where no piece is empty. -/
theorem separated_whole {delimiter : UInt8} {p : List UInt8} (whole : [] ∉ p.splitOn delimiter) :
    separated delimiter p = p.splitOn delimiter := by
  unfold separated
  rw [List.filter_eq_self]
  intro token member
  have some : token ≠ [] := fun empty => whole (empty ▸ member)
  simpa using some

/-- The piece in front of a leading slash is empty. -/
theorem separated_slash {rest : List UInt8} (whole : [] ∉ rest.splitOn 47) :
    separated 47 (47 :: rest) = rest.splitOn 47 := by
  unfold separated
  rw [List.splitOn_cons_eq_if_modifyHead, if_pos (by simp), List.filter_cons_of_neg (by simp)]
  exact separated_whole whole

/-- Pieces that are put together with separators between them are the pieces of the result. -/
theorem intercalate_whole {delimiter : UInt8} {p rest : List UInt8} (some : separated delimiter p ≠ [])
    (joined : rest = List.intercalate [delimiter] (separated delimiter p)) : [] ∉ rest.splitOn delimiter := by
  have split : rest.splitOn delimiter = separated delimiter p := by
    rw [joined]
    refine List.splitOn_intercalate delimiter (fun token member => ?_) some
    exact splitOn_separator delimiter p token (List.mem_filter.mp member).1
  rw [split]
  exact fun member => separated_some delimiter p [] member rfl

/-- The path is the same after it was split and joined. -/
theorem path_kept_iff (p : List UInt8) :
    (if ((separated 47 p).flatMap fun segment => 47 :: segment) = [] then [47]
      else (separated 47 p).flatMap fun segment => 47 :: segment) = (if p = [] then [47] else p) ↔ KeptPath p := by
  have joined := flatMap_cons_eq 47 (separated 47 p)
  unfold KeptPath
  by_cases none : separated 47 p = []
  · rw [none, List.flatMap_nil, if_pos rfl]
    constructor
    · intro same
      split at same
      · rename_i empty
        exact Or.inl empty
      · exact Or.inr (Or.inl same.symm)
    · rintro (empty | slash | ⟨rest, path, whole⟩)
      · rw [if_pos empty]
      · rw [slash, if_neg (by simp)]
      · rw [path, separated_slash whole] at none
        exact absurd none (List.splitOn_ne_nil 47 rest)
  · rw [joined none, if_neg (by simp)]
    constructor
    · intro same
      split at same
      · rename_i empty
        exact Or.inl empty
      · exact Or.inr (Or.inr ⟨_, same.symm, intercalate_whole none rfl⟩)
    · rintro (empty | slash | ⟨rest, path, whole⟩)
      · exact absurd (by rw [empty]; rfl) none
      · exact absurd (by rw [slash]; rfl) none
      · rw [path, separated_slash whole, List.intercalate_splitOn, if_neg (by simp)]

/-- The query is the same after it was split and joined. -/
theorem query_kept_iff (q : List UInt8) : (separated 38 q).foldl joinQuery [] = q ↔ KeptQuery q := by
  rw [joinQuery_eq _ (separated_some 38 q)]
  unfold KeptQuery
  constructor
  · intro same
    by_cases none : separated 38 q = []
    · rw [none] at same
      exact Or.inl same.symm
    · exact Or.inr (intercalate_whole none same.symm)
  · rintro (empty | whole)
    · rw [empty]
      rfl
    · rw [separated_whole whole, List.intercalate_splitOn]

/-- A string of 1 to 270 characters is one option more. -/
theorem ecOptsAddShortString_texts {opts : EcOpts} {sym : EcOptSym} {s : List UInt8} (type : ecOptSym2type sym = .string)
    (added : (ecOptsAddShortString opts sym s).2 = 0) (other : EcOptSym) :
    optionTexts other (ecOptsAddShortString opts sym s).1.bundle.list =
      optionTexts other opts.bundle.list ++ if other = sym then [cString s] else [] := by
  unfold ecOptsAddShortString at added ⊢
  split at added
  · cases added
  · rename_i bounds
    have string : ecOptsAddString opts sym s = ecOptsAddRaw opts sym (cString s) := by
      unfold ecOptsAddString
      rw [if_neg (by simp [type])]
    rw [string] at added
    rw [if_neg bounds, string]
    rcases ecOptsAddRaw_cases opts sym (cString s) with ⟨refused, _⟩ | ⟨_, _, _, fragmented⟩
    · rw [refused] at added
      cases added
    · have one : optSegments (cString s) = [cString s] := by
        have slots : optSlots (cString s).length = 1 := by
          unfold optSlots
          simp only [ecCoapOptLenMax]
          omega
        obtain ⟨segment, segments⟩ := List.length_eq_one_iff.mp ((optSegments_length (cString s)).trans slots)
        have whole := optSegments_flatten (cString s)
        rw [segments, List.flatten_singleton] at whole
        rw [segments, whole]
      have kept : keptBytes sym (cString s) = cString s := by
        unfold keptBytes ecOptCopies
        rw [type, if_pos (by decide)]
      rw [fragmented.texts other, one, List.map_singleton, kept, cString_whole (cString_nul s)]

/-- The tokens that are not empty all become options. -/
theorem ecOptsAddTokens_texts {add : EcOpts → List UInt8 → EcOpts × Int} {sym : EcOptSym}
    (adds : ∀ opts token, (add opts token).2 = 0 → ∀ other, optionTexts other (add opts token).1.bundle.list =
      optionTexts other opts.bundle.list ++ if other = sym then [cString token] else [])
    (tokens : List (List UInt8)) (opts : EcOpts) (added : (ecOptsAddTokens add tokens opts).2 = 0) (other : EcOptSym) :
    optionTexts other (ecOptsAddTokens add tokens opts).1.bundle.list = optionTexts other opts.bundle.list ++
      if other = sym then (tokens.filter fun token => token ≠ []).map cString else [] := by
  induction tokens generalizing opts with
  | nil => simp [ecOptsAddTokens]
  | cons token tokens inductionHypothesis =>
      rw [ecOptsAddTokens] at added ⊢
      by_cases empty : token = []
      · rw [if_pos empty] at added ⊢
        rw [inductionHypothesis opts added, List.filter_cons_of_neg (by simpa using empty)]
      · rw [if_neg empty] at added ⊢
        dsimp only at added ⊢
        by_cases failed : (add opts token).2 ≠ 0
        · rw [if_pos failed] at added
          cases added
        · rw [if_neg failed] at added ⊢
          rw [inductionHypothesis _ added, adds opts token (not_not.mp failed) other,
            List.filter_cons_of_pos (by simpa using empty), List.append_assoc]
          split
          · rfl
          · rfl

theorem ecOptsAddSeparated_texts {add : EcOpts → List UInt8 → EcOpts × Int} {sym : EcOptSym}
    (adds : ∀ opts token, (add opts token).2 = 0 → ∀ other, optionTexts other (add opts token).1.bundle.list =
      optionTexts other opts.bundle.list ++ if other = sym then [cString token] else [])
    {delimiter : UInt8} {p : List UInt8} (string : 0 ∉ p) {opts : EcOpts}
    (added : (ecOptsAddSeparated add delimiter p opts).2 = 0) (other : EcOptSym) :
    optionTexts other (ecOptsAddSeparated add delimiter p opts).1.bundle.list =
      optionTexts other opts.bundle.list ++ if other = sym then separated delimiter p else [] := by
  have strings : (separated delimiter p).map cString = separated delimiter p := by
    refine (List.map_congr_left fun token member => cString_whole fun zero => string ?_).trans (List.map_id _)
    exact splitOn_subset delimiter p token (List.mem_filter.mp member).1 0 zero
  unfold ecOptsAddSeparated at added ⊢
  by_cases empty : p = []
  · rw [if_pos empty, empty]
    simp [separated]
  · rw [if_neg empty] at added ⊢
    split at added
    · cases added
    · rename_i short
      rw [if_neg short, ecOptsAddTokens_texts adds _ opts added other]
      change _ ++ (if other = sym then (separated delimiter p).map cString else []) = _
      rw [strings]

/-- The parts of a URI are C strings. -/
structure UUri.Strings (u : UUri) : Prop where
  path : 0 ∉ u.path
  query : 0 ∉ u.query

/-- What a client that goes without proxy makes of the path and the query of its URI. -/
theorem ecClientUriOpts_texts {isAbsolute : List UInt8 → Bool} {uri : List UInt8} {u : UUri} (strings : u.Strings)
    {opts : EcOpts} (accepted : (ecClientUriOpts isAbsolute false uri u opts).2 = 0) :
    optionTexts .uriPath (ecClientUriOpts isAbsolute false uri u opts).1.bundle.list =
        optionTexts .uriPath opts.bundle.list ++ separated 47 u.path ∧
      optionTexts .uriQuery (ecClientUriOpts isAbsolute false uri u opts).1.bundle.list =
        optionTexts .uriQuery opts.bundle.list ++ separated 38 u.query := by
  have short : ∀ sym, ecOptSym2type sym = .string → ∀ opts token, (ecOptsAddShortString opts sym token).2 = 0 →
      ∀ other, optionTexts other (ecOptsAddShortString opts sym token).1.bundle.list =
        optionTexts other opts.bundle.list ++ if other = sym then [cString token] else [] :=
    fun sym type opts token added other => ecOptsAddShortString_texts type added other
  have pathed : ∀ {opts}, (ecOptsAddSeparated ecOptsAddUriPath 47 u.path opts).2 = 0 → ∀ other,
      optionTexts other (ecOptsAddSeparated ecOptsAddUriPath 47 u.path opts).1.bundle.list =
        optionTexts other opts.bundle.list ++ if other = .uriPath then separated 47 u.path else [] :=
    fun added other => ecOptsAddSeparated_texts (short .uriPath (by decide)) strings.path added other
  have queried : ∀ {opts}, (ecOptsAddSeparated ecOptsAddUriQuery 38 u.query opts).2 = 0 → ∀ other,
      optionTexts other (ecOptsAddSeparated ecOptsAddUriQuery 38 u.query opts).1.bundle.list =
        optionTexts other opts.bundle.list ++ if other = .uriQuery then separated 38 u.query else [] :=
    fun added other => ecOptsAddSeparated_texts (short .uriQuery (by decide)) strings.query added other
  unfold ecClientUriOpts at accepted ⊢
  split at accepted
  · cases accepted
  · rename_i named
    rw [if_neg named]
    rw [if_neg (by decide)] at accepted ⊢
    split at accepted
    · cases accepted
    · rename_i scheme
      rw [if_neg scheme]
      have host : ∀ other, other ≠ .uriHost → (if u.noFlags then ecOptsAddUriHost opts u.host else (opts, 0)).2 = 0 →
          optionTexts other (if u.noFlags then ecOptsAddUriHost opts u.host else (opts, 0)).1.bundle.list =
            optionTexts other opts.bundle.list := by
        intro other different added
        split at added
        · rename_i flags
          rw [if_pos flags]
          rw [show ecOptsAddUriHost opts u.host = ecOptsAddShortString opts .uriHost u.host from rfl] at added ⊢
          rw [short .uriHost (by decide) opts u.host added other, if_neg different, List.append_nil]
        · rename_i flags
          rw [if_neg flags]
      generalize (if u.noFlags then ecOptsAddUriHost opts u.host else (opts, 0)) = hosted at accepted host ⊢
      dsimp only at accepted ⊢
      split at accepted
      · cases accepted
      · rename_i hostAdded
        rw [if_neg hostAdded]
        split at accepted
        · cases accepted
        · rename_i pathAdded
          rw [if_neg pathAdded]
          split at accepted
          · cases accepted
          · rename_i queryAdded
            rw [if_neg queryAdded]
            rw [queried (not_not.mp queryAdded), queried (not_not.mp queryAdded), pathed (not_not.mp pathAdded),
              pathed (not_not.mp pathAdded), host _ (by decide) (not_not.mp hostAdded),
              host _ (by decide) (not_not.mp hostAdded)]
            simp

/-- The server gets the path and the query of the URI back from the options of the client, whatever other options it
gets with them, exactly when the URI has neither empty segments nor empty parameters; and it gets a URL when its buffers
have room for the options. -/
theorem composeUri_splits_iff {isAbsolute : List UInt8 → Bool} {uri : List UInt8} {u : UUri} (strings : u.Strings)
    {opts : EcOpts} (noPath : ecOptsGet opts .uriPath = none) (noQuery : ecOptsGet opts .uriQuery = none)
    (accepted : (ecClientUriOpts isAbsolute false uri u opts).2 = 0) {os : List EcOpt}
    (path : os.filter (fun o => o.sym = .uriPath) =
      (ecClientUriOpts isAbsolute false uri u opts).1.bundle.list.filter fun o => o.sym = .uriPath)
    (query : os.filter (fun o => o.sym = .uriQuery) =
      (ecClientUriOpts isAbsolute false uri u opts).1.bundle.list.filter fun o => o.sym = .uriQuery)
    {lib : UriLibrary} (lawful : lib.Lawful) (order : ByteOrder) (us : SockAddr) (nosec : Bool) :
    (∀ url, composeUri lib order us nosec os = some url →
      ((url.path = (if u.path = [] then [47] else u.path) ∧ url.query = u.query) ↔
        KeptPath u.path ∧ KeptQuery u.query)) ∧
      (lib.Kneads → Composable lib us os → (composeUri lib order us nosec os).isSome) := by
  refine ⟨fun url composed => ?_, fun kneads composable => composeUri_isSome lawful kneads nosec composable⟩
  obtain ⟨t, done, rfl⟩ := composeUri_tokens composed
  obtain ⟨segments, params⟩ := ecClientUriOpts_texts strings accepted
  rw [optionTexts_absent noPath, List.nil_append] at segments
  rw [optionTexts_absent noQuery, List.nil_append] at params
  have composedSegments : optionTexts .uriPath os = separated 47 u.path := by
    rw [← segments]
    exact congrArg (List.map fun o => cString o.value) path
  have composedParams : optionTexts .uriQuery os = separated 38 u.query := by
    rw [← params]
    exact congrArg (List.map fun o => cString o.value) query
  have joinedPath := composedPath lawful os UriTokens.init t done
  have joinedQuery := composedQuery lawful os UriTokens.init t done
  rw [composedSegments] at joinedPath
  rw [composedParams] at joinedQuery
  rw [← path_kept_iff, ← query_kept_iff]
  change ((if t.path = [] then [47] else t.path) = _ ∧ t.query = _) ↔ _
  rw [joinedPath, joinedQuery]
  rfl

/-- The URI `coap://m` with this path and this query. -/
def moteUri (path query : List UInt8) : UUri := ⟨coapScheme, [109], path, query, true⟩

/-- The options of a client for that URI. -/
def moteOpts (path query : List UInt8) : EcOpts :=
  (ecClientUriOpts (fun _ => true) false [] (moteUri path query) ecOptsInit).1

/-- The path `/a` and the query `b` come back. -/
theorem plainUri_kept : ∃ url, composeUri numericLibrary .little localAddress true (moteOpts [47, 97] [98]).bundle.list =
    some url ∧ url.path = [47, 97] ∧ url.query = [98] := by
  have strings : (moteUri [47, 97] [98]).Strings := ⟨by decide, by decide⟩
  have accepted : (ecClientUriOpts (fun _ => true) false [] (moteUri [47, 97] [98]) ecOptsInit).2 = 0 := by decide
  have lawful : numericLibrary.Lawful := boundedStrings_lawful
  have composable : Composable numericLibrary localAddress (moteOpts [47, 97] [98]).bundle.list :=
    ⟨by decide, by decide, by decide⟩
  have splits := composeUri_splits_iff strings rfl rfl accepted rfl rfl lawful .little localAddress true
  obtain ⟨url, composed⟩ := Option.isSome_iff_exists.mp (splits.2 (fun _ _ => rfl) composable)
  exact ⟨url, composed, (splits.1 url composed).mpr ⟨Or.inr (Or.inr ⟨[97], rfl, by decide⟩), Or.inr (by decide)⟩⟩

/-- The slash at the end of `/a/` is lost. -/
theorem trailingSlash_lost : ¬ ∀ isAbsolute uri (u : UUri) (lib : UriLibrary) order us nosec url, u.Strings → lib.Lawful →
    (ecClientUriOpts isAbsolute false uri u ecOptsInit).2 = 0 →
    composeUri lib order us nosec (ecClientUriOpts isAbsolute false uri u ecOptsInit).1.bundle.list = some url →
      url.path = (if u.path = [] then [47] else u.path) ∧ url.query = u.query := by
  intro always
  have kept := always (fun _ => true) [] (moteUri [47, 97, 47] []) numericLibrary .little localAddress true
    ⟨coapScheme, [], [109], decimalText 5683, [47, 97], []⟩ ⟨by decide, by decide⟩ boundedStrings_lawful (by decide)
    (by decide)
  exact absurd kept.1 (by decide)

end Webthings.Evcoap
