import Selium.Runtime.Grants

/-! Attenuation of grants: what the syntactic subset check of the runtime says
about the contexts that the selectors admit. -/
namespace Selium.Runtime
open Abi Lib.Text
open NetworkEndpoint (parse prefixMatches)
open List (all_eq_true replicate nil_append)

def selectorAdmits (toLowercase : Text → Text) (selector : ResourceSelector) (context : ScopeContext) : Bool :=
  match selector with
  | .namespace .root => true
  | other => other.matches toLowercase context

def grantAdmits (toLowercase : Text → Text) (grant : CapabilityGrant) (context : ScopeContext) : Bool :=
  grant.selectors.all fun selector => selectorAdmits toLowercase selector context

def Attenuates (toLowercase : Text → Text) (parent child : CapabilityGrant) : Prop :=
  ∀ context, child.allows toLowercase context = true → grantAdmits toLowercase parent context = true

def uriPrefixes (grant : CapabilityGrant) : List Text :=
  grant.selectors.filterMap fun
    | .uriPrefix text => some text
    | _ => none

theorem mem_uriPrefixes (grant : CapabilityGrant) (text : Text) :
    text ∈ uriPrefixes grant ↔ ResourceSelector.uriPrefix text ∈ grant.selectors := by
  simp only [uriPrefixes,List.mem_filterMap]
  constructor
  · intro found
    obtain ⟨selector,member,equal⟩ := found
    cases selector <;> simp_all
  · intro member
    exact ⟨_,member,rfl⟩

/-- No context carries a port that the text admits: a list of blank tokens. -/
def portUnusable (port : Text) : Prop := port ≠ "*".toList ∧ ∀ token ∈ portTokens port, token = []

def portNarrows (parent child : Text) : Prop :=
  parent = "*".toList ∨ (child ≠ "*".toList ∧ ∀ token ∈ portTokens child, token ≠ [] → token ∈ portTokens parent)

/-- When a child prefix that extends the parent's text stays inside it. Two
endpoints compare by components. A parent that is no endpoint is compared by
text, so every spelling of the child's endpoint has to begin with it. -/
def Narrows (toLowercase : Text → Text) (parent child : Text) : Prop :=
  match NetworkEndpoint.parse toLowercase parent, NetworkEndpoint.parse toLowercase child with
  | none,none => True
  | some _,none => False
  | some outer,some inner =>
    portUnusable inner.port ∨ (hostMatches outer.host inner.host = true ∧ portNarrows outer.port inner.port)
  | none,some inner =>
    portUnusable inner.port ∨ parent <+: inner.scheme ++ schemeSeparator ∨
      (¬ "*.".toList <+: inner.host ∧ ∀ hostPart port, normalHost toLowercase hostPart = inner.host →
        portValid port = true → portMatches inner.port port = true → parent <+: spelling inner.scheme hostPart port)

theorem portMatches_usable (port context : Text) (valid : portValid context = true)
    (admitted : portMatches port context = true) : ¬ portUnusable port := by
  intro unusable
  rcases (portMatches_iff port context).mp admitted with star | member
  · exact unusable.1 star
  · exact portValid_nonempty context valid (unusable.2 context member)

variable (toLowercase : Text → Text) (text parent child uri : Text)

theorem portMatches_narrows (context : Text) (valid : portValid context = true) (narrows : portNarrows parent child)
    (admitted : portMatches child context = true) :
    portMatches parent context = true := by
  rw [portMatches_iff] at *
  rcases narrows with star | ⟨list,tokens⟩
  · exact Or.inl star
  · exact Or.inr (tokens context (admitted.resolve_left list) (portValid_nonempty context valid))

theorem uriPrefixMatches_plain (plain : parse toLowercase text = none ∨ parse toLowercase uri = none) :
    uriPrefixMatches toLowercase text uri = true ↔ text <+: uri := by
  unfold uriPrefixMatches
  rw [← List.isPrefixOf_iff_prefix]
  cases grant : parse toLowercase text with
  | none => simp
  | some endpoint => simp [plain.resolve_left (by simp [grant])]

theorem uriPrefixMatches_endpoint (grant context : NetworkEndpoint) (left : parse toLowercase text = some grant)
    (right : parse toLowercase uri = some context) :
    uriPrefixMatches toLowercase text uri = true ↔ grant.scheme = context.scheme ∧
      hostMatches grant.host context.host = true ∧ portMatches grant.port context.port = true := by
  simp [uriPrefixMatches,left,right,prefixMatches,and_assoc]

theorem parse_prefix_scheme (outer inner : NetworkEndpoint) (left : parse toLowercase parent = some outer)
    (right : parse toLowercase child = some inner) (longer : parent <+: child) :
    outer.scheme = inner.scheme := by
  obtain ⟨first,rfl,firstNetwork,_⟩ := (parse_some toLowercase parent outer).mp left
  obtain ⟨second,rfl,secondNetwork,_⟩ := (parse_some toLowercase child inner).mp right
  obtain ⟨rest,equal⟩ := longer
  rcases firstNetwork with a | a <;> rcases secondNetwork with b | b <;>
    simp [spelling,a,b] at equal ⊢

theorem uriPrefixMatches_narrows (longer : parent <+: child) (narrows : Narrows toLowercase parent child)
    (admitted : uriPrefixMatches toLowercase child uri = true) :
    uriPrefixMatches toLowercase parent uri = true := by
  cases context : parse toLowercase uri with
  | none =>
    rw [uriPrefixMatches_plain toLowercase _ uri (Or.inr context)] at *
    exact longer.trans admitted
  | some actual =>
    cases inner : parse toLowercase child with
    | none =>
      rw [uriPrefixMatches_plain toLowercase child uri (Or.inl inner)] at admitted
      cases outer : parse toLowercase parent with
      | none =>
        rw [uriPrefixMatches_plain toLowercase parent uri (Or.inl outer)]
        exact longer.trans admitted
      | some grant => simp [Narrows,outer,inner] at narrows
    | some narrow =>
      rw [uriPrefixMatches_endpoint toLowercase child uri narrow actual inner context] at admitted
      obtain ⟨scheme,host,port⟩ := admitted
      obtain ⟨hostPart,spelled,_,valid,normal,nonempty⟩ := (parse_some toLowercase uri actual).mp context
      have usable := portMatches_usable _ _ valid port
      cases outer : parse toLowercase parent with
      | none =>
        rw [uriPrefixMatches_plain toLowercase parent uri (Or.inl outer),spelled,← scheme]
        simp only [Narrows,outer,inner] at narrows
        rcases narrows.resolve_left usable with short | ⟨literal,spellings⟩
        · exact short.trans ⟨hostPart ++ ':' :: actual.port,by simp [spelling]⟩
        · rcases (hostMatches_iff _ _).mp host with same | ⟨suffix,wildcard,_⟩
          · exact spellings hostPart actual.port (normal.symm.trans same.symm) valid port
          · exact absurd ⟨suffix,by rw [wildcard]; rfl⟩ literal
      | some grant =>
        rw [uriPrefixMatches_endpoint toLowercase parent uri grant actual outer context]
        simp only [Narrows,outer,inner] at narrows
        obtain ⟨hosts,ports⟩ := narrows.resolve_left usable
        exact ⟨(parse_prefix_scheme toLowercase parent child grant narrow outer inner longer).trans scheme,
          hostMatches_trans _ _ _ hosts host,portMatches_narrows _ _ _ valid ports port⟩

theorem selectorAdmits_covered (parent child : ResourceSelector) (context : ScopeContext) (covers : selectorCovers parent child = true)
    (admitted : child.matches toLowercase context = true) (notUri : ∀ text, parent ≠ .uriPrefix text) :
    selectorAdmits toLowercase parent context = true := by
  cases parent with
  | uriPrefix text => exact absurd rfl (notUri text)
  | tenant _ | resourceClass _ | explicitResource _ => cases child <;> simp_all [selectorCovers,selectorAdmits,ResourceSelector.matches]
  | «namespace» scope =>
    cases scope with
    | root => rfl
    | tenant name =>
      cases child <;>
        simp_all [selectorCovers,selectorAdmits,ResourceSelector.matches,namespaceCovers,Namespace.matchesTenant]
  | locality scope =>
    cases child with
    | locality inner => exact LocalityScope.matches_trans scope inner context.locality covers admitted
    | _ => simp [selectorCovers] at covers
  | children => cases child <;> simp_all [selectorCovers,ResourceSelector.matches]

def PrefixesNarrow (toLowercase : Text → Text) (parent child : CapabilityGrant) : Prop :=
  ∀ outer ∈ uriPrefixes parent, ∃ inner ∈ uriPrefixes child, outer <+: inner ∧ Narrows toLowercase outer inner

theorem matches_uriPrefix (context : ScopeContext) :
    (ResourceSelector.uriPrefix text).matches toLowercase context = true ↔
      ∃ uri, context.uri = some uri ∧ uriPrefixMatches toLowercase text uri = true := by
  cases carried : context.uri <;> simp [ResourceSelector.matches,carried]

theorem attenuates_of_narrow (parent child : CapabilityGrant) (covers : parentGrantCoversChild parent child = true)
    (narrow : PrefixesNarrow toLowercase parent child) :
    Attenuates toLowercase parent child := by
  intro context allowed
  simp only [CapabilityGrant.allows,grantAdmits,parentGrantCoversChild,all_eq_true,List.any_eq_true,
    Bool.and_eq_true] at allowed covers ⊢
  intro selector member
  by_cases uri : ∃ text, selector = .uriPrefix text
  · obtain ⟨text,rfl⟩ := uri
    obtain ⟨inner,inside,longer,narrows⟩ := narrow text ((mem_uriPrefixes parent text).mpr member)
    have admitted := allowed _ ((mem_uriPrefixes child inner).mp inside)
    obtain ⟨uri,carried,matched⟩ := (matches_uriPrefix toLowercase inner context).mp admitted
    exact (matches_uriPrefix toLowercase text context).mpr
      ⟨uri,carried,uriPrefixMatches_narrows toLowercase text inner uri longer narrows matched⟩
  · obtain ⟨inner,inside,covered⟩ := covers.2 selector member
    exact selectorAdmits_covered toLowercase selector inner context covered (allowed inner inside)
      (fun text same => uri ⟨text,same⟩)

/-- What is used of Unicode lower-casing: a decimal digit maps to itself and, being
neither cased nor case-ignorable, separates the contexts of the text around it. -/
structure DigitsSeparate (toLowercase : Text → Text) : Prop where
  empty : toLowercase [] = []
  digit : ∀ before digit after, digit.isDigit = true →
    toLowercase (before ++ digit::after) = toLowercase before ++ digit::toLowercase after

theorem toLowercase_ones (law : DigitsSeparate toLowercase) (before : Text) (n : Nat) :
    toLowercase (before ++ replicate (n+1) '1') = toLowercase before ++ replicate (n+1) '1' := by
  induction n generalizing before with
  | zero => simpa [law.empty] using law.digit before '1' [] (by decide)
  | succ n ih =>
    rw [List.replicate_succ,law.digit before '1' _ (by decide)]
    have tail := ih []
    rw [nil_append,law.empty,nil_append] at tail
    rw [tail]

theorem hostMatches_ones (host before : Text) :
    hostMatches host (before ++ replicate (host.length+2) '1') = false := by
  by_contra matched
  rcases (hostMatches_iff _ _).mp (by simpa using matched) with same | ⟨suffix,rfl,ending⟩
  · have size := congrArg List.length same
    simp at size
    omega
  · have inside : ('.' :: suffix) <:+ replicate (('*' :: '.' :: suffix).length+2) '1' :=
      List.suffix_of_suffix_length_le ending (List.suffix_append _ _) (by simp)
    have dot := inside.subset (List.mem_cons_self)
    exact absurd (List.eq_of_mem_replicate dot) (by decide)

theorem parse_spelling (scheme hostPart port : Text) (network : networkScheme scheme) (valid : portValid port = true)
    (nonempty : normalHost toLowercase hostPart ≠ []) :
    parse toLowercase (spelling scheme hostPart port) =
      some ⟨scheme,normalHost toLowercase hostPart,port⟩ :=
  (parse_some toLowercase _ _).mpr ⟨hostPart,rfl,network,valid,rfl,nonempty⟩

theorem usable_port (port : Text) (valid : portValid port = true) (usable : ¬ portUnusable port) :
    ∃ context, portValid context = true ∧ portMatches port context = true := by
  by_cases star : port = "*".toList
  · exact ⟨"*".toList,by decide,(portMatches_iff _ _).mpr (Or.inl star)⟩
  · simp only [portUnusable,not_and,not_forall] at usable
    obtain ⟨token,member,nonempty⟩ := usable star
    exact ⟨token,portTokens_valid port token valid star member nonempty,(portMatches_iff _ _).mpr (Or.inr member)⟩

theorem escaping_port (parentValid : portValid parent = true) (childValid : portValid child = true) (wider : ¬ portNarrows parent child) :
    ∃ context, portValid context = true ∧ portMatches child context = true ∧ portMatches parent context = false := by
  simp only [portNarrows,not_or,not_and] at wider
  obtain ⟨list,wider⟩ := wider
  by_cases star : child = "*".toList
  · refine ⟨"*".toList,by decide,(portMatches_iff _ _).mpr (Or.inl star),?_⟩
    rw [Bool.eq_false_iff,ne_eq,portMatches_iff]
    exact fun admitted => portTokens_star parent parentValid list (admitted.resolve_left list)
  · have escaping := wider star
    simp only [not_forall] at escaping
    obtain ⟨token,member,nonempty,absent⟩ := escaping
    refine ⟨token,portTokens_valid child token childValid star member nonempty,
      (portMatches_iff _ _).mpr (Or.inr member),?_⟩
    rw [Bool.eq_false_iff,ne_eq,portMatches_iff]
    exact fun admitted => absent (admitted.resolve_left list)

def Escapes (toLowercase : Text → Text) (parent child : Text) : Prop :=
  ∃ uri, uriPrefixMatches toLowercase child uri = true ∧ uriPrefixMatches toLowercase parent uri = false

theorem escapes_plain_child (law : DigitsSeparate toLowercase) (parent child : Text) (outer : NetworkEndpoint)
    (left : parse toLowercase parent = some outer) (right : parse toLowercase child = none)
    (longer : parent <+: child) :
    Escapes toLowercase parent child := by
  obtain ⟨hostPart,spelled,network,_⟩ := (parse_some toLowercase parent outer).mp left
  obtain ⟨more,rfl⟩ := longer
  -- The appended ones move the parent's port into the host of a longer endpoint.
  let before := hostPart ++ ':' :: outer.port ++ more
  let ones := replicate (outer.host.length+2) '1'
  have host : normalHost toLowercase (before ++ ones) = toLowercase before ++ ones := by
    have lowered := toLowercase_ones toLowercase law before (outer.host.length+1)
    have final : ones = replicate (outer.host.length+1) '1' ++ ['1'] := List.replicate_succ'
    unfold normalHost
    rw [show ones = replicate (outer.host.length+1+1) '1' from rfl,lowered]
    change stripLast '.' (toLowercase before ++ ones) = toLowercase before ++ ones
    rw [final,← List.append_assoc]
    exact stripLast_snoc '.' '1' _ (by decide)
  have parsed := parse_spelling toLowercase outer.scheme (before ++ ones) "1".toList network (by decide)
    (by rw [host]; simp [ones,List.replicate_succ])
  refine ⟨spelling outer.scheme (before ++ ones) "1".toList,?_,?_⟩
  · rw [uriPrefixMatches_plain toLowercase _ _ (Or.inl right)]
    exact ⟨ones ++ ':' :: "1".toList,by rw [spelled]; simp [spelling,before]⟩
  · rw [Bool.eq_false_iff,ne_eq,uriPrefixMatches_endpoint toLowercase parent _ outer _ left parsed]
    intro matched
    have hosts := matched.2.1
    rw [host,hostMatches_ones] at hosts
    contradiction

theorem escapes_endpoints (outer inner : NetworkEndpoint) (left : parse toLowercase parent = some outer)
    (right : parse toLowercase child = some inner) (usable : ¬ portUnusable inner.port)
    (wider : ¬ (hostMatches outer.host inner.host = true ∧ portNarrows outer.port inner.port)) :
    Escapes toLowercase parent child := by
  obtain ⟨_,_,_,parentValid,_⟩ := (parse_some toLowercase parent outer).mp left
  obtain ⟨hostPart,_,network,valid,host,nonempty⟩ := (parse_some toLowercase child inner).mp right
  obtain ⟨port,portOk,admitted,refused⟩ : ∃ port, portValid port = true ∧ portMatches inner.port port = true ∧
      ¬ (hostMatches outer.host inner.host = true ∧ portMatches outer.port port = true) := by
    by_cases hosts : hostMatches outer.host inner.host = true
    · obtain ⟨port,portOk,admitted,refused⟩ := escaping_port outer.port inner.port parentValid valid
        (fun ports => wider ⟨hosts,ports⟩)
      exact ⟨port,portOk,admitted,fun both => by simp [refused] at both⟩
    · obtain ⟨port,portOk,admitted⟩ := usable_port inner.port valid usable
      exact ⟨port,portOk,admitted,fun both => hosts both.1⟩
  have parsed := parse_spelling toLowercase inner.scheme hostPart port network portOk (host ▸ nonempty)
  refine ⟨spelling inner.scheme hostPart port,?_,?_⟩
  · rw [uriPrefixMatches_endpoint toLowercase child _ inner _ right parsed]
    exact ⟨rfl,by rw [← host]; exact hostMatches_refl _,admitted⟩
  · rw [Bool.eq_false_iff,ne_eq,uriPrefixMatches_endpoint toLowercase parent _ outer _ left parsed,← host]
    exact fun matched => refused matched.2

theorem escapes_wildcard (law : DigitsSeparate toLowercase) (parent child : Text) (inner : NetworkEndpoint)
    (left : parse toLowercase parent = none) (right : parse toLowercase child = some inner)
    (usable : ¬ portUnusable inner.port) (long : ¬ parent <+: inner.scheme ++ schemeSeparator) (wildcard : "*.".toList <+: inner.host) :
    Escapes toLowercase parent child := by
  obtain ⟨hostPart,spelled,network,valid,host,nonempty⟩ := (parse_some toLowercase child inner).mp right
  obtain ⟨port,portOk,admitted⟩ := usable_port inner.port valid usable
  obtain ⟨suffix,shape⟩ := wildcard
  have lowered : toLowercase hostPart ≠ [] := by
    intro empty
    rw [normalHost,empty] at host
    exact nonempty (host.trans rfl)
  have admits (digit : Char) (isDigit : digit.isDigit = true) :
      uriPrefixMatches toLowercase child (spelling inner.scheme (digit::hostPart) port) = true := by
    have normal : normalHost toLowercase (digit::hostPart) = digit::inner.host := by
      have cut := law.digit [] digit hostPart isDigit
      rw [nil_append,law.empty,nil_append] at cut
      rw [normalHost,cut,stripLast_cons '.' digit _ lowered,host]
      rfl
    have parsed := parse_spelling toLowercase inner.scheme (digit::hostPart) port network portOk (by simp [normal])
    rw [uriPrefixMatches_endpoint toLowercase child _ inner _ right parsed]
    refine ⟨rfl,(hostMatches_iff _ _).mpr (Or.inr ⟨suffix,shape.symm,digit::['*'],?_⟩),admitted⟩
    rw [normal,← shape]
    rfl
  -- The parent reaches past the separator, so it fixes the first character of the host.
  have fixes (digit : Char) (begins : parent <+: spelling inner.scheme (digit::hostPart) port) :
      inner.scheme ++ schemeSeparator ++ [digit] <+: parent := by
    have reach : inner.scheme ++ schemeSeparator ++ [digit] <+: spelling inner.scheme (digit::hostPart) port :=
      ⟨hostPart ++ ':' :: port,by simp [spelling]⟩
    rcases List.prefix_or_prefix_of_prefix begins reach with short | reached
    · rcases List.prefix_concat_iff.mp short with whole | shorter
      · exact whole ▸ List.prefix_refl _
      · exact absurd shorter long
    · exact reached
  by_contra none_escapes
  simp only [Escapes,not_exists,not_and,Bool.not_eq_false] at none_escapes
  have begins (digit : Char) (isDigit : digit.isDigit = true) :=
    (uriPrefixMatches_plain toLowercase parent _ (Or.inl left)).mp (none_escapes _ (admits digit isDigit))
  have one := fixes '1' (begins '1' (by decide))
  have two := fixes '2' (begins '2' (by decide))
  have same := List.prefix_of_prefix_length_le one two (by simp)
  simp at same

theorem escapes_of_wider (law : DigitsSeparate toLowercase) (parent child : Text) (longer : parent <+: child)
    (wider : ¬ Narrows toLowercase parent child) :
    Escapes toLowercase parent child := by
  cases outer : parse toLowercase parent with
  | none =>
    cases inner : parse toLowercase child with
    | none => simp [Narrows,outer,inner] at wider
    | some narrow =>
      simp only [Narrows,outer,inner,not_or] at wider
      obtain ⟨usable,long,wider⟩ := wider
      by_cases wildcard : "*.".toList <+: narrow.host
      · exact escapes_wildcard toLowercase law parent child narrow outer inner usable long wildcard
      · have respelled := not_and.mp wider wildcard
        simp only [not_forall] at respelled
        obtain ⟨hostPart,port,host,valid,admitted,refused⟩ := respelled
        obtain ⟨_,_,network,_,_,nonempty⟩ := (parse_some toLowercase child narrow).mp inner
        have parsed := parse_spelling toLowercase narrow.scheme hostPart port network valid (host ▸ nonempty)
        refine ⟨spelling narrow.scheme hostPart port,?_,?_⟩
        · rw [uriPrefixMatches_endpoint toLowercase child _ narrow _ inner parsed,host]
          exact ⟨rfl,hostMatches_refl _,admitted⟩
        · rw [Bool.eq_false_iff,ne_eq,uriPrefixMatches_plain toLowercase parent _ (Or.inl outer)]
          exact refused
  | some grant =>
    cases inner : parse toLowercase child with
    | none => exact escapes_plain_child toLowercase law parent child grant outer inner longer
    | some narrow =>
      simp only [Narrows,outer,inner,not_or] at wider
      exact escapes_endpoints toLowercase parent child grant narrow outer inner wider.1 wider.2

/-- No context satisfies the selectors of the grant other than its URI prefixes. -/
def Contradictory (toLowercase : Text → Text) (grant : CapabilityGrant) : Prop :=
  ∀ context, ∃ selector ∈ grant.selectors, (∀ text, selector ≠ .uriPrefix text) ∧
    selector.matches toLowercase context = false

theorem covers_prefix (parent child : CapabilityGrant) (covers : parentGrantCoversChild parent child = true)
    (outer : Text) (member : outer ∈ uriPrefixes parent) : ∃ inner ∈ uriPrefixes child, outer <+: inner := by
  simp only [parentGrantCoversChild,Bool.and_eq_true,all_eq_true,List.any_eq_true] at covers
  obtain ⟨selector,inside,covered⟩ := covers.2 _ ((mem_uriPrefixes parent outer).mp member)
  cases selector with
  | uriPrefix inner =>
    exact ⟨inner,(mem_uriPrefixes child inner).mpr inside,List.isPrefixOf_iff_prefix.mp (by simpa [selectorCovers] using covered)⟩
  | _ => simp [selectorCovers] at covered

theorem narrow_of_attenuates (law : DigitsSeparate toLowercase) (parent child : CapabilityGrant)
    (covers : parentGrantCoversChild parent child = true) (single : ∀ a ∈ uriPrefixes child, ∀ b ∈ uriPrefixes child, a = b)
    (consistent : ¬ Contradictory toLowercase child) (sound : Attenuates toLowercase parent child) :
    PrefixesNarrow toLowercase parent child := by
  intro outer member
  obtain ⟨inner,inside,longer⟩ := covers_prefix parent child covers outer member
  refine ⟨inner,inside,longer,?_⟩
  by_contra wider
  obtain ⟨uri,admitted,refused⟩ := escapes_of_wider toLowercase law outer inner longer wider
  simp only [Contradictory,not_forall,not_exists,not_and,Bool.not_eq_false] at consistent
  obtain ⟨context,satisfied⟩ := consistent
  have allowed : child.allows toLowercase {context with uri := some uri} = true := by
    simp only [CapabilityGrant.allows,all_eq_true]
    intro selector inChild
    by_cases isUri : ∃ text, selector = .uriPrefix text
    · obtain ⟨text,rfl⟩ := isUri
      have same := single text ((mem_uriPrefixes child text).mpr inChild) inner inside
      exact (matches_uriPrefix toLowercase text _).mpr ⟨uri,rfl,same ▸ admitted⟩
    · have notUri : ∀ text, selector ≠ .uriPrefix text := fun text same => isUri ⟨text,same⟩
      have plain := satisfied selector inChild notUri
      cases selector with
      | uriPrefix text => exact absurd rfl (notUri text)
      | _ => exact plain
  have parentAdmits := sound _ allowed
  simp only [grantAdmits,all_eq_true] at parentAdmits
  obtain ⟨carried,same,matched⟩ := (matches_uriPrefix toLowercase outer {context with uri := some uri}).mp
    (parentAdmits _ ((mem_uriPrefixes parent outer).mp member))
  cases Option.some.inj same
  rw [refused] at matched
  contradiction

/-- The subset check is sound exactly up to its treatment of URI prefixes: a parent
prefix has to be narrowed by a child prefix component by component, while the
check compares the raw texts. With a single child prefix nothing else can help,
unless the child's other selectors contradict each other. -/
theorem attenuates_iff_narrow (law : DigitsSeparate toLowercase) (parent child : CapabilityGrant)
    (covers : parentGrantCoversChild parent child = true) :
    (PrefixesNarrow toLowercase parent child → Attenuates toLowercase parent child) ∧
    ((∀ a ∈ uriPrefixes child, ∀ b ∈ uriPrefixes child, a = b) →
      (Attenuates toLowercase parent child ↔
        Contradictory toLowercase child ∨ PrefixesNarrow toLowercase parent child)) := by
  have enough := attenuates_of_narrow toLowercase parent child covers
  refine ⟨enough,fun single => ⟨fun sound => ?_,fun condition => ?_⟩⟩
  · by_cases contradictory : Contradictory toLowercase child
    · exact Or.inl contradictory
    · exact Or.inr (narrow_of_attenuates toLowercase law parent child covers single contradictory sound)
  · rcases condition with contradictory | narrow
    · intro context allowed
      obtain ⟨selector,member,_,refused⟩ := contradictory context
      simp only [CapabilityGrant.allows,all_eq_true] at allowed
      rw [allowed selector member] at refused
      contradiction
    · exact enough narrow

def asciiLowercase (text : Text) : Text := text.map Char.toLower

theorem asciiLowercase_digits : DigitsSeparate asciiLowercase where
  empty := rfl
  digit before digit after isDigit := by
    have bounds := Char.isDigit_iff_toNat.mp isDigit
    have fixed : digit.toLower = digit := by
      unfold Char.toLower
      rw [dif_neg]
      intro upper
      have low : 'A'.toNat ≤ digit.toNat := upper.1
      exact absurd (low.trans bounds.2) (by decide)
    simp [asciiLowercase,fixed]

def portGrant (port : String) : CapabilityGrant :=
  ⟨.network,[.resourceClass .tcpStream,.uriPrefix ("tcp://10.0.0.1:".toList ++ port.toList)]⟩

theorem attenuates_iff_narrow_ports :
    parentGrantCoversChild (portGrant "80,443") (portGrant "80,443,80") = true ∧
      Attenuates asciiLowercase (portGrant "80,443") (portGrant "80,443,80") := by
  refine ⟨by decide,(attenuates_iff_narrow asciiLowercase asciiLowercase_digits _ _ (by decide)).1 ?_⟩
  intro outer member
  obtain rfl : outer = "tcp://10.0.0.1:80,443".toList := by simpa [uriPrefixes,portGrant] using member
  refine ⟨"tcp://10.0.0.1:80,443,80".toList,by decide,by decide,?_⟩
  have left : parse asciiLowercase "tcp://10.0.0.1:80,443".toList =
      some ⟨"tcp".toList,"10.0.0.1".toList,"80,443".toList⟩ := by decide
  have right : parse asciiLowercase "tcp://10.0.0.1:80,443,80".toList =
      some ⟨"tcp".toList,"10.0.0.1".toList,"80,443,80".toList⟩ := by decide
  unfold Narrows
  rw [left,right]
  exact Or.inr ⟨by decide,Or.inr ⟨by decide,by decide⟩⟩

/-- The covered child reaches port 8080, which its parent refuses. -/
theorem covered_port_escapes :
    validateGrants [portGrant "80",portGrant "8080"] = .ok () ∧
      parentGrantCoversChild (portGrant "80") (portGrant "8080") = true ∧
      (∀ selector ∈ (portGrant "80").selectors ++ (portGrant "8080").selectors, selector ≠ .children) ∧
      ¬ Attenuates asciiLowercase (portGrant "80") (portGrant "8080") := by
  refine ⟨by decide,by decide,by decide,fun sound => ?_⟩
  have admitted := sound {uri := some "tcp://10.0.0.1:8080".toList, resourceClass := some .tcpStream} (by decide)
  exact absurd admitted (by decide)

end Selium.Runtime
