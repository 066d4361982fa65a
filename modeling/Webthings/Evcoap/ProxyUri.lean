import Webthings.Evcoap.ComposeUri
import Webthings.Evcoap.Options.Fragments

namespace Webthings.Evcoap

/-- The strings of a symbol after fragments of a value were added: those of its own symbol are behind the others. -/
theorem Fragmented.texts {opts added : EcOpts} {sym : EcOptSym} {segments : List (List UInt8)}
    (fragmented : Fragmented opts sym segments added) (other : EcOptSym) :
    optionTexts other added.bundle.list = optionTexts other opts.bundle.list ++
      if other = sym then segments.map fun segment => cString (keptBytes sym segment) else [] := by
  obtain ⟨_, _, os, list, symbols, _, values⟩ := fragmented
  have before := congrArg (optionTexts other) (opts.bundle.split sym)
  rw [optionTexts_append] at before
  rw [list, optionTexts_append, optionTexts_append, ← before]
  by_cases same : other = sym
  · subst same
    have high : optionTexts other (opts.bundle.list.filter fun x => other.value < x.sym.value) = [] := by
      unfold optionTexts
      rw [List.filter_filter, List.map_eq_nil_iff, List.filter_eq_nil_iff]
      intro x _
      simp only [Bool.and_eq_true, decide_eq_true_eq, not_and, Nat.not_lt]
      intro symbol
      rw [symbol]
    have new : optionTexts other os = segments.map fun segment => cString (keptBytes other segment) := by
      unfold optionTexts
      rw [List.filter_eq_self.mpr (by simpa using symbols)]
      have mapped := congrArg (List.map cString) values
      rw [List.map_map, List.map_map] at mapped
      exact mapped
    rw [if_pos rfl, high, new, List.append_nil, List.append_nil]
  · have none : optionTexts other os = [] := by
      unfold optionTexts
      rw [List.map_eq_nil_iff, List.filter_eq_nil_iff]
      intro o member
      rw [symbols o member]
      simpa using Ne.symm same
    rw [if_neg same, none, List.append_nil, List.append_nil]

theorem optionTexts_absent {opts : EcOpts} {sym : EcOptSym} (absent : ecOptsGet opts sym = none) :
    optionTexts sym opts.bundle.list = [] := by
  have first : (opts.bundle.list.filter fun o => o.sym = sym).head? = none := List.head?_eq_getElem?.trans absent
  unfold optionTexts
  rw [List.head?_eq_none_iff.mp first]
  rfl

/-- The fragments are put together as long as the buffer has room for them. -/
theorem proxyUriText_eq {lib : UriLibrary} (lawful : lib.Lawful) (os : List EcOpt) (uri : List UInt8)
    (short : (uri ++ (optionTexts .proxyUri os).flatten).length < lib.strmax) :
    os.foldlM (fun uri o => if o.sym = .proxyUri then lib.uStrlcat lib.strmax uri o.value else some uri) uri =
      some (uri ++ (optionTexts .proxyUri os).flatten) := by
  induction os generalizing uri with
  | nil => exact congrArg some (List.append_nil uri).symm
  | cons o os inductionHypothesis =>
      rw [optionTexts_cons] at short ⊢
      rw [List.foldlM_cons]
      by_cases symbol : o.sym = .proxyUri
      · rw [if_pos symbol, List.flatten_cons, ← List.append_assoc] at short
        have joined : lib.uStrlcat lib.strmax uri o.value = some (uri ++ cString o.value) := by
          rw [lawful.joins, if_pos]
          rw [List.length_append] at short
          omega
        rw [if_pos symbol, if_pos symbol, joined, List.flatten_cons, ← List.append_assoc]
        exact inductionHypothesis (uri ++ cString o.value) short
      · rw [if_neg symbol] at short
        rw [if_neg symbol, if_neg symbol]
        exact inductionHypothesis uri short

/-- A string loses nothing as a C string when it is cut. -/
theorem optSegments_strings {v : List UInt8} (whole : 0 ∉ v) :
    (optSegments v).map (fun segment => cString segment) = optSegments v := by
  refine (List.map_congr_left fun segment member => cString_whole fun zero => whole ?_).trans (List.map_id _)
  rw [← optSegments_flatten v]
  exact List.mem_flatten.mpr ⟨segment, member, zero⟩

/-- What goes into a set as a Proxy-Uri is put together again, as far as it fits the buffer. -/
def ReassemblesProxyUri (lib : UriLibrary) (isAbsolute : List UInt8 → Bool) (opts : EcOpts) (pu : List UInt8) : Prop :=
  lib.Lawful → ecOptsGet opts .proxyUri = none → (ecOptsAddProxyUri isAbsolute opts pu).2 = 0 →
    (cString pu).length < lib.strmax →
    proxyUriText lib (ecOptsAddProxyUri isAbsolute opts pu).1.bundle.list = some (cString pu) ∧
      composeProxyUri lib (ecOptsAddProxyUri isAbsolute opts pu).1.bundle.list =
        (lib.crumble (cString pu)).map fun u => (cString pu, u)

theorem ecOptsAddProxyUri_reassembles (lib : UriLibrary) (isAbsolute : List UInt8 → Bool) (opts : EcOpts)
    (pu : List UInt8) : ReassemblesProxyUri lib isAbsolute opts pu := by
  intro lawful absent added short
  unfold ecOptsAddProxyUri at added ⊢
  split at added
  · cases added
  · rename_i some'
    rw [if_neg some']
    split at added
    · rename_i absolute
      rw [if_pos absolute]
      have string : ecOptsAddString opts .proxyUri pu = ecOptsAddRaw opts .proxyUri (cString pu) := rfl
      rw [string] at added ⊢
      rcases ecOptsAddRaw_cases opts .proxyUri (cString pu) with ⟨refused, _⟩ | ⟨_, _, _, fragmented⟩
      · rw [refused] at added
        cases added
      · have texts := fragmented.texts .proxyUri
        rw [optionTexts_absent absent, if_pos rfl, List.nil_append] at texts
        have kept : ∀ segment, keptBytes .proxyUri segment = segment := fun segment => rfl
        simp only [kept] at texts
        rw [optSegments_strings (cString_nul pu)] at texts
        have whole : proxyUriText lib (ecOptsAddRaw opts .proxyUri (cString pu)).1.bundle.list = some (cString pu) := by
          unfold proxyUriText
          rw [proxyUriText_eq lawful, texts, optSegments_flatten, List.nil_append]
          rw [texts, optSegments_flatten]
          exact short
        refine ⟨whole, ?_⟩
        unfold composeProxyUri
        rw [whole]
        dsimp only
        rw [if_neg fun empty => some' (List.length_eq_zero_iff.mpr empty)]
    · cases added

/-- Values go into a set in fragments and leave it as they were, apart from the value of an If-None-Match; and a
Proxy-Uri that goes into a set is put together again. -/
theorem ecOptsAddRaw_fragments_iff (opts : EcOpts) (sym : EcOptSym) (v : List UInt8) :
    (AddsFragments opts sym v ↔ ecProtoMaxOptions - opts.noptions < optSlots v.length ∨
        sym.Valid ∧ (sym = .ifNoneMatch → v = [])) ∧
      ∀ lib isAbsolute pu, ReassemblesProxyUri lib isAbsolute opts pu :=
  ⟨addsFragments_iff opts sym v, fun lib isAbsolute pu => ecOptsAddProxyUri_reassembles lib isAbsolute opts pu⟩

/-- A Proxy-Uri of 300 characters takes two slots. -/
example : (ecOptsAddProxyUri (fun _ => true) ecOptsInit (List.replicate 300 97)).2 = 0 ∧
    (ecOptsAddProxyUri (fun _ => true) ecOptsInit (List.replicate 300 97)).1.noptions = 2 := by decide +kernel

/-- The value of an If-None-Match is lost. -/
theorem ifNoneMatch_unfragmented : ¬ ∀ opts sym v, EcOptSym.Valid sym → AddsFragments opts sym v := by
  intro always
  have kept := (addsFragments_iff ecOptsInit .ifNoneMatch [120]).mp (always ecOptsInit .ifNoneMatch [120] (by decide))
  exact absurd kept (by decide)

end Webthings.Evcoap
