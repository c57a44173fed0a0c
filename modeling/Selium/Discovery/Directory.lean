import Selium.Discovery.Store

/-! The directory of typed targets: the part of the store that only the feed decides. Its keys are
those whose first segment names a class; requests of clients come to lie beside them. -/
namespace Selium.Discovery
open Lib Abi

def isClassKey (key : Text) : Bool :=
  match Uri.parseSel key with
  | some (_,path) => Uri.isClassSegment ((Uri.segments path).head?.getD [])
  | none => false

theorem isClassKey_of_parseTyped {uri : Text} (typed : (Uri.parseTyped uri).isSome = true) : isClassKey uri = true := by
  obtain ⟨parsed,same⟩ := Option.isSome_iff_exists.mp typed
  obtain ⟨⟨tenant,path⟩,parses,rest⟩ := Option.bind_eq_some_iff.mp same
  obtain ⟨⟨classSegment,idSegment⟩,splits,rest⟩ := Option.bind_eq_some_iff.mp rest
  dsimp only at rest
  split at rest
  · cases rest
  · obtain ⟨cls,named,_⟩ := Option.bind_eq_some_iff.mp rest
    rw [isClassKey,parses]
    dsimp only
    rw [Uri.segments,Text.splitOn_head _ _ _ _ splits,Option.getD_some,Uri.isClassSegment,named]
    rfl

theorem slash_not_mem_authority {uri tenant path : Text} (parses : Uri.parseSel uri = some (tenant,path)) : '/' ∉ tenant := by
  unfold Uri.parseSel at parses
  split at parses
  · cases parses
  · rename_i rest _
    cases parses
    exact Text.splitOnce_front '/' rest

theorem trimSlashes_typed (cls : ResourceClass) (id : Nat) :
    Uri.trimSlashes (cls.uriSegment ++ '/' :: Nat.toDigits 10 id) = cls.uriSegment ++ '/' :: Nat.toDigits 10 id := by
  have front : (cls.uriSegment ++ '/' :: Nat.toDigits 10 id).dropWhile (· == '/') = cls.uriSegment ++ '/' :: Nat.toDigits 10 id := by
    cases cls <;> rfl
  unfold Uri.trimSlashes Text.trim
  rw [front,List.rdropWhile_eq_self_iff]
  intro nonempty
  have last : (cls.uriSegment ++ '/' :: Nat.toDigits 10 id).getLast nonempty ∈ Nat.toDigits 10 id := by
    rw [List.getLast_append_of_ne_nil _ (List.cons_ne_nil _ _),List.getLast_cons Nat.toDigits_ne_nil]
    exact List.getLast_mem _
  have digit := Nat.isDigit_of_mem_toDigits (by decide) (by decide) last
  intro slash
  rw [beq_iff_eq.mp slash] at digit
  cases digit

theorem isClassKey_resourceUri {tenant : Text} (plain : '/' ∉ tenant) (cls : ResourceClass) (id : Nat) :
    isClassKey (Uri.resourceUri tenant cls id) = true := by
  have shape : Uri.resourceUri tenant cls id = Uri.selPrefix ++ (tenant ++ '/' :: (cls.uriSegment ++ '/' :: Nat.toDigits 10 id)) := by
    simp [Uri.resourceUri]
  have parses : Uri.parseSel (Uri.resourceUri tenant cls id) = some (tenant,cls.uriSegment ++ '/' :: Nat.toDigits 10 id) := by
    rw [shape,Uri.parseSel,Uri.stripPrefix,if_pos (List.isPrefixOf_iff_prefix.mpr ⟨_,rfl⟩),List.drop_left]
    dsimp only
    rw [Text.splitOnce_first '/' tenant _ plain,Option.getD_some]
    dsimp only
    rw [trimSlashes_typed]
  have named : '/' ∉ cls.uriSegment ∧ Uri.isClassSegment cls.uriSegment = true := by
    cases cls <;> decide
  rw [isClassKey,parses]
  dsimp only
  rw [Uri.segments,Text.splitOn_head '/' _ _ _ (Text.splitOnce_first '/' cls.uriSegment _ named.1)]
  exact named.2

theorem mem_insertText (uri other : Text) (uris : List Text) : other ∈ insertText uri uris ↔ other = uri ∨ other ∈ uris := by
  unfold insertText
  split_ifs with listed
  · rw [List.contains_iff_mem] at listed
    constructor
    · exact .inr
    · rintro (rfl | member)
      · exact listed
      · exact member
  · rw [List.mem_orderedInsert]

@[ext] structure Directory where
  targets : Text → Option ResourceTarget
  owners : Text → Option ProcessId
  labels : Text × Text → List Text

namespace Directory

def register (directory : Directory) (target : ResourceTarget) (owner : Option ProcessId) : Directory where
  targets := fun key => if key = target.uri ∧ isClassKey key then some target else directory.targets key
  owners := fun key => if key = target.uri ∧ isClassKey key ∧ owner.isSome then owner else directory.owners key
  labels := fun label =>
    if (Uri.parseTyped target.uri).isSome ∧ ∃ own ∈ target.labels, (own.key,own.value) = label then insertText target.uri
        (directory.labels label)
    else directory.labels label

def revoke (directory : Directory) (gone : Text → Prop) [DecidablePred gone] : Directory where
  targets := fun key => if gone key then none else directory.targets key
  owners := fun key => if gone key then none else directory.owners key
  labels := fun label => (directory.labels label).filter (fun key => ¬gone key)

def apply (directory : Directory) : DiscoveryRequest → Directory
  | .register _ target owner _ => directory.register target owner
  | .revoke uri => directory.revoke (· = uri)
  | .revokeByOwner processId => directory.revoke (fun key => directory.owners key = some processId)
  | .seedDomain _ _ | .resolve _ | .resolvePrefix _ | .resolveLabels _ _ | .listDomains => directory

theorem revoke_congr {directory : Directory} {first second : Text → Prop} [DecidablePred first] [DecidablePred second]
    (targets : ∀ key, directory.targets key ≠ none → (first key ↔ second key))
    (owners : ∀ key, directory.owners key ≠ none → (first key ↔ second key))
    (labels : ∀ label, ∀ key ∈ directory.labels label, (first key ↔ second key)) :
    directory.revoke first = directory.revoke second := by
  unfold revoke
  congr 1
  · funext key
    by_cases absent : directory.targets key = none
    · rw [absent,ite_self,ite_self]
    · simp only [targets key absent]
  · funext key
    by_cases absent : directory.owners key = none
    · rw [absent,ite_self,ite_self]
    · simp only [owners key absent]
  · funext label
    apply List.filter_congr
    intro key member
    simp only [labels label key member]

theorem revoke_nobody {directory : Directory} {gone : Text → Prop} [DecidablePred gone]
    (targets : ∀ key, directory.targets key ≠ none → ¬gone key)
    (owners : ∀ key, directory.owners key ≠ none → ¬gone key) (labels : ∀ label, ∀ key ∈ directory.labels label, ¬gone key) :
    directory.revoke gone = directory := by
  have same := @revoke_congr directory gone (fun _ => False) _ _ (fun key present => iff_false_intro (targets key present))
    (fun key present => iff_false_intro (owners key present)) (fun label key member => iff_false_intro (labels label key member))
  rw [same,revoke]
  simp

theorem revoke_revoke (directory : Directory) (first second : Text → Prop) [DecidablePred first] [DecidablePred second] :
    (directory.revoke first).revoke second = directory.revoke (fun key => first key ∨ second key) := by
  unfold revoke
  congr 1
  · funext key
    by_cases gone : second key
    · simp [gone]
    · simp [gone]
  · funext key
    by_cases gone : second key
    · simp [gone]
    · simp [gone]
  · funext label
    simp only [List.filter_filter]
    apply List.filter_congr
    intro key _
    by_cases gone : second key
    · simp [gone]
    · simp [gone]

end Directory
namespace DiscoveryStore

def directory (s : DiscoveryStore) : Directory where
  targets := fun key => if isClassKey key then s.registrations.lookup key else none
  owners := fun key => if isClassKey key then s.routeOwners.lookup key else none
  labels := fun label => (s.labelIndex.lookup label).getD []

/-- Aliases lie beside the typed namespace, labels inside it. -/
structure Separated (s : DiscoveryStore) : Prop where
  aliases : ∀ uri canonical, s.aliases.lookup uri = some canonical → isClassKey uri = false
  backrefs : ∀ key uris, s.aliasBackrefs.lookup key = some uris → ∀ uri ∈ uris, isClassKey uri = false
  labels : ∀ label uris, s.labelIndex.lookup label = some uris → uris ≠ [] ∧ ∀ uri ∈ uris, isClassKey uri = true
  keyed : ∀ key target, isClassKey key = true → s.registrations.lookup key = some target → target.uri = key

structure Mirrors (s : DiscoveryStore) (directory : Directory) : Prop where
  separated : s.Separated
  same : s.directory = directory

theorem Separated.empty : Separated {} := by
  refine ⟨?_,?_,?_,?_⟩
  · exact nofun
  · exact nofun
  · exact nofun
  · exact nofun

variable {s : DiscoveryStore} {key uri : Text} {order : List Text → List Text}

theorem listed_revokeAlias {uris : List Text} (found : (s.revokeAlias uri).aliasBackrefs.lookup key = some uris) :
    ∃ before, s.aliasBackrefs.lookup key = some before ∧ uris ⊆ before := by
  unfold DiscoveryStore.revokeAlias at found
  split at found
  · rename_i canonical _
    unfold dropBackref at found
    split at found
    · exact ⟨uris,found,List.Subset.refl uris⟩
    · rename_i before listed
      dsimp only at found
      split at found
      · exact ⟨uris,(Map.lookup_of_erase found).2,List.Subset.refl uris⟩
      · rw [Map.lookup_insert_if] at found
        split_ifs at found with same
        · cases found
          exact ⟨before,same ▸ listed,fun _ member => List.mem_of_mem_filter member⟩
        · exact ⟨uris,found,List.Subset.refl uris⟩
  · exact ⟨uris,found,List.Subset.refl uris⟩

theorem mem_ownedKeys (s : DiscoveryStore) (processId : ProcessId) : key ∈ s.ownedKeys processId ↔
    s.routeOwners.lookup key = some processId := by
  rw [ownedKeys,List.mem_map,Map.lookup_iff_mem]
  constructor
  · rintro ⟨entry,member,rfl⟩
    obtain ⟨member,owner⟩ := List.mem_filter.mp member
    rw [beq_iff_eq] at owner
    rw [← owner]
    exact member
  · exact fun member => ⟨⟨key,processId⟩,List.mem_filter.mpr ⟨member,beq_self_eq_true _⟩,rfl⟩

section
variable (separated : s.Separated)
include separated

theorem Separated.label_class {label : Text × Text} (member : key ∈ s.directory.labels label) :
    isClassKey key = true := by
  replace member : key ∈ (s.labelIndex.lookup label).getD [] := member
  cases found : s.labelIndex.lookup label with
  | none =>
    rw [found] at member
    cases member
  | some uris =>
    rw [found] at member
    exact (separated.labels label uris found).2 key member

theorem Separated.backref_outside (member : uri ∈ (s.aliasBackrefs.lookup key).getD []) :
    isClassKey uri = false := by
  cases found : s.aliasBackrefs.lookup key with
  | none =>
    rw [found] at member
    cases member
  | some uris =>
    rw [found] at member
    exact separated.backrefs key uris found uri member

theorem Separated.revoke_outside {gone : Text → Prop} [DecidablePred gone]
    (outside : ∀ key, gone key → isClassKey key = false) : s.directory.revoke gone = s.directory := by
  apply Directory.revoke_nobody
  · intro key present bad
    simp [directory,outside key bad] at present
  · intro key present bad
    simp [directory,outside key bad] at present
  · intro label key member bad
    have inside := separated.label_class member
    rw [outside key bad] at inside
    cases inside

theorem Separated.revokeAlias (outside : isClassKey uri = false) : Mirrors (s.revokeAlias uri) s.directory := by
  have different : ∀ {key}, isClassKey key = true → key ≠ uri := by
    rintro key inside rfl
    rw [outside] at inside
    cases inside
  constructor
  · refine ⟨?_,?_,separated.labels,?_⟩
    · intro other canonical found
      replace found : (s.aliases.erase uri).lookup other = some canonical := found
      exact separated.aliases other canonical (Map.lookup_of_erase found).2
    · intro key uris found other member
      obtain ⟨before,listed,within⟩ := listed_revokeAlias found
      exact separated.backrefs key before listed other (within member)
    · intro key target inside found
      replace found : (s.registrations.erase uri).lookup key = some target := found
      rw [Map.lookup_erase_if,if_neg (different inside)] at found
      exact separated.keyed key target inside found
  · unfold directory
    congr 1
    · funext key
      split_ifs with inside
      · show (s.registrations.erase uri).lookup key = _
        rw [Map.lookup_erase_if,if_neg (different inside)]
      · rfl
    · funext key
      split_ifs with inside
      · show (s.routeOwners.erase uri).lookup key = _
        rw [Map.lookup_erase_if,if_neg (different inside)]
      · rfl

end

theorem Separated.revokeAliases (uris : List Text) : ∀ {s : DiscoveryStore}, s.Separated →
    (∀ uri ∈ uris, isClassKey uri = false) →
    Mirrors (uris.foldl DiscoveryStore.revokeAlias s) s.directory := by
  induction uris with
  | nil => exact fun separated _ => ⟨separated,rfl⟩
  | cons uri rest ih =>
    intro s separated outside
    obtain ⟨next,same⟩ := separated.revokeAlias (outside uri List.mem_cons_self)
    obtain ⟨last,unchanged⟩ := ih next fun other member => outside other (List.mem_cons_of_mem uri member)
    exact ⟨last,unchanged.trans same⟩

theorem lookup_unindex (key : Text) (index : Map (Text × Text) (List Text)) (label : Text × Text) :
    (unindex key index).lookup label = ((index.lookup label).map (·.filter (· != key))).filter (fun uris => !uris.isEmpty) := by
  rw [unindex,Map.lookup_retain,Map.lookup_mapValues]

theorem Separated.disown (separated : s.Separated) (removed : Option ResourceTarget) : Mirrors (disown removed s) s.directory := by
  unfold DiscoveryStore.disown
  split
  · exact ⟨separated,rfl⟩
  · split
    · exact ⟨separated,rfl⟩
    · exact ⟨{separated with},rfl⟩

theorem directory_eraseOwner (s : DiscoveryStore) (key : Text) :
    directory {s with routeOwners := s.routeOwners.erase key} =
      {s.directory with owners := fun other => if other = key then none else s.directory.owners other} := by
  unfold directory
  congr 1
  funext other
  rw [Map.lookup_erase_if]
  by_cases gone : other = key
  · rw [if_pos gone,if_pos gone,ite_self]
  · rw [if_neg gone,if_neg gone]

theorem directory_unindex (s : DiscoveryStore) (key : Text) (services : Map Text Text) :
    directory {s with labelIndex := unindex key s.labelIndex, rootServices := services} =
      {s.directory with labels := fun label => (s.directory.labels label).filter (· != key)} := by
  unfold directory
  congr 1
  funext label
  dsimp only
  rw [lookup_unindex]
  cases s.labelIndex.lookup label with
  | none => rfl
  | some uris =>
    rw [Option.map_some,Option.filter_some,Option.getD_some]
    split_ifs with empty
    · rfl
    · simp only [Bool.not_eq_true,Bool.not_eq_false',List.isEmpty_iff] at empty
      rw [empty]
      rfl

theorem Separated.revokeKey (separated : s.Separated) (key : Text) : Mirrors (s.revokeKey key) (s.directory.revoke (· = key)) := by
  let taken : DiscoveryStore := {s with registrations := s.registrations.erase key, aliasBackrefs := s.aliasBackrefs.erase key}
  have first : taken.Separated := by
    refine ⟨separated.aliases,?_,separated.labels,?_⟩
    · intro other uris found
      replace found : (s.aliasBackrefs.erase key).lookup other = some uris := found
      exact separated.backrefs other uris (Map.lookup_of_erase found).2
    · intro other target inside found
      replace found : (s.registrations.erase key).lookup other = some target := found
      exact separated.keyed other target inside (Map.lookup_of_erase found).2
  obtain ⟨second,same⟩ := Separated.revokeAliases _ first fun _ member => separated.backref_outside member
  let cascaded := ((s.aliasBackrefs.lookup key).getD []).foldl DiscoveryStore.revokeAlias taken
  let services := cascaded.rootServices.retain (fun _ service => service != key)
  let indexed : DiscoveryStore := {cascaded with labelIndex := unindex key cascaded.labelIndex, rootServices := services}
  have third : indexed.Separated := by
    refine {second with labels := ?_}
    intro label uris found
    replace found : (unindex key cascaded.labelIndex).lookup label = some uris := found
    rw [lookup_unindex,Option.filter_eq_some_iff] at found
    obtain ⟨mapped,nonempty⟩ := found
    obtain ⟨before,listed,rfl⟩ := Option.map_eq_some_iff.mp mapped
    exact ⟨by simpa using nonempty,fun uri member => (second.labels label before listed).2 uri (List.mem_of_mem_filter member)⟩
  obtain ⟨fourth,unowned⟩ := third.disown (s.registrations.lookup key)
  constructor
  · exact {fourth with}
  · show directory {DiscoveryStore.disown (s.registrations.lookup key) indexed with routeOwners := _} = _
    rw [directory_eraseOwner,unowned,directory_unindex,same]
    apply Directory.ext
    · funext other
      show (if isClassKey other then (s.registrations.erase key).lookup other else none) = _
      rw [Map.lookup_erase_if,directory]
      by_cases gone : other = key
      · rw [if_pos gone,ite_self]
        exact (if_pos gone).symm
      · rw [if_neg gone]
        exact (if_neg gone).symm
    · rfl
    · funext label
      apply List.filter_congr
      intro other _
      rw [Bool.eq_iff_iff,bne_iff_ne,decide_eq_true_iff]

theorem Separated.revokeOwned (separated : s.Separated) (key : Text) : Mirrors (s.revokeOwned key) (s.directory.revoke (· = key)) := by
  unfold DiscoveryStore.revokeOwned
  split_ifs with aliased
  · obtain ⟨canonical,found⟩ := Option.isSome_iff_exists.mp aliased
    have outside := separated.aliases key canonical found
    obtain ⟨next,same⟩ := separated.revokeAlias outside
    refine ⟨next,same.trans (separated.revoke_outside ?_).symm⟩
    rintro other rfl
    exact outside
  · exact separated.revokeKey key

theorem Separated.revokeAll (keys : List Text) : ∀ {s : DiscoveryStore}, s.Separated →
    Mirrors (keys.foldl DiscoveryStore.revokeOwned s) (s.directory.revoke (· ∈ keys)) := by
  induction keys with
  | nil =>
    intro s separated
    exact ⟨separated,(Directory.revoke_nobody (fun _ _ => List.not_mem_nil) (fun _ _ => List.not_mem_nil)
      (fun _ _ _ => List.not_mem_nil)).symm⟩
  | cons key rest ih =>
    intro s separated
    obtain ⟨next,same⟩ := separated.revokeOwned key
    obtain ⟨last,removed⟩ := ih next
    refine ⟨last,removed.trans ?_⟩
    rw [same,Directory.revoke_revoke]
    have member : ∀ other, (other = key ∨ other ∈ rest) ↔ other ∈ key :: rest := fun other => List.mem_cons.symm
    exact Directory.revoke_congr (fun other _ => member other) (fun other _ => member other) (fun _ other _ => member other)

theorem Separated.revokeByOwner (complete : ∀ keys key, key ∈ order keys ↔ key ∈ keys) (separated : s.Separated)
    (processId : ProcessId) :
    Mirrors (s.revokeByOwner order processId) (s.directory.revoke (fun key => s.directory.owners key = some processId)) := by
  obtain ⟨next,removed⟩ := Separated.revokeAll (order (s.ownedKeys processId)) separated
  refine ⟨next,removed.trans ?_⟩
  have owned : ∀ key, isClassKey key = true → (key ∈ order (s.ownedKeys processId) ↔ s.directory.owners key = some processId) := by
    intro key inside
    show _ ↔ (if isClassKey key then s.routeOwners.lookup key else none) = some processId
    rw [complete,if_pos inside,mem_ownedKeys]
  have inside : ∀ key, (if isClassKey key then s.registrations.lookup key else none) ≠ none → isClassKey key = true := by
    intro key present
    by_contra outer
    rw [if_neg outer] at present
    exact present rfl
  apply Directory.revoke_congr
  · exact fun key present => owned key (inside key present)
  · intro key present
    apply owned
    by_contra outer
    replace present : (if isClassKey key then s.routeOwners.lookup key else none) ≠ none := present
    rw [if_neg outer] at present
    exact present rfl
  · exact fun label key member => owned key (separated.label_class member)

theorem getD_indexLabel (uri : Text) (index : Map (Text × Text) (List Text)) (label : Label) (pair : Text × Text) :
    ((indexLabel uri index label).lookup pair).getD [] =
      if (label.key,label.value) = pair then insertText uri ((index.lookup pair).getD []) else (index.lookup pair).getD [] := by
  rw [indexLabel,Map.lookup_insert_if]
  by_cases same : pair = (label.key,label.value)
  · rw [if_pos same,if_pos same.symm,Option.getD_some,same]
  · rw [if_neg same,if_neg (Ne.symm same)]

theorem getD_indexLabels (uri : Text) (labels : List Label) (pair : Text × Text) : ∀ index : Map (Text × Text) (List Text),
    ((labels.foldl (indexLabel uri) index).lookup pair).getD [] =
      if ∃ label ∈ labels, (label.key,label.value) = pair then insertText uri ((index.lookup pair).getD [])
          else (index.lookup pair).getD [] := by
  induction labels with
  | nil =>
    intro index
    simp
  | cons label rest ih =>
    intro index
    rw [List.foldl_cons,ih,getD_indexLabel]
    by_cases same : (label.key,label.value) = pair
    · have listed : (insertText uri ((index.lookup pair).getD [])).contains uri = true :=
        List.contains_iff_mem.mpr ((mem_insertText uri uri _).mpr (.inl rfl))
      rw [if_pos same,insertText,if_pos listed,ite_self,if_pos ⟨label,List.mem_cons_self,same⟩]
    · rw [if_neg same]
      simp only [List.mem_cons,exists_eq_or_imp,same,false_or]

def LabelsInside (index : Map (Text × Text) (List Text)) : Prop :=
  ∀ label uris, index.lookup label = some uris → uris ≠ [] ∧ ∀ uri ∈ uris, isClassKey uri = true

theorem LabelsInside.indexLabel (inside : isClassKey uri = true) {index : Map (Text × Text) (List Text)}
    (labels : LabelsInside index) (label : Label) : LabelsInside (indexLabel uri index label) := by
  intro pair uris found
  rw [DiscoveryStore.indexLabel,Map.lookup_insert_if] at found
  split at found
  · cases found
    refine ⟨List.ne_nil_of_mem ((mem_insertText uri uri _).mpr (.inl rfl)),?_⟩
    intro other member
    rw [mem_insertText] at member
    obtain rfl | before := member
    · exact inside
    · cases listed : index.lookup (label.key,label.value) with
      | none =>
        rw [listed] at before
        cases before
      | some uris =>
        rw [listed] at before
        exact (labels _ uris listed).2 other before
  · exact labels pair uris found

theorem store_fields (s : DiscoveryStore) (target : ResourceTarget) (owner : Option ProcessId) :
    (s.store target owner).registrations = s.registrations.insert target.uri target ∧
      (s.store target owner).routeOwners = owner.elim s.routeOwners (s.routeOwners.insert target.uri) ∧
      (s.store target owner).labelIndex = (if (Uri.parseTyped target.uri).isSome then target.labels.foldl
          (indexLabel target.uri) s.labelIndex
        else s.labelIndex) ∧
      (s.store target owner).aliases = s.aliases ∧ (s.store target owner).aliasBackrefs = s.aliasBackrefs := by
  unfold DiscoveryStore.store
  cases owner with
  | none | some _ =>
    dsimp only
    split
    all_goals exact ⟨rfl,rfl,rfl,rfl,rfl⟩

theorem Separated.store (separated : s.Separated) (target : ResourceTarget) (owner : Option ProcessId) :
    Mirrors (s.store target owner) (s.directory.register target owner) := by
  obtain ⟨registrations,routeOwners,labelIndex,aliases,backrefs⟩ := store_fields s target owner
  constructor
  · refine ⟨by rw [aliases]; exact separated.aliases,by rw [backrefs]; exact separated.backrefs,?_,?_⟩
    · rw [labelIndex]
      split_ifs with typed
      · refine List.foldlRecOn (motive := LabelsInside) _ _ separated.labels fun _ before label _ => ?_
        exact before.indexLabel (isClassKey_of_parseTyped typed) label
      · exact separated.labels
    · intro key other inside found
      rw [registrations,Map.lookup_insert_if] at found
      split_ifs at found with same
      · cases found
        exact same.symm
      · exact separated.keyed key other inside found
  · apply Directory.ext
    · funext key
      show (if isClassKey key then (s.store target owner).registrations.lookup key else none) = _
      rw [registrations,Map.lookup_insert_if]
      by_cases inside : isClassKey key = true
      · simp [inside,directory,Directory.register]
      · simp [inside,directory,Directory.register]
    · funext key
      show (if isClassKey key then (s.store target owner).routeOwners.lookup key else none) = _
      rw [routeOwners]
      cases owner with
      | none => simp [directory,Directory.register]
      | some processId =>
        rw [Option.elim_some,Map.lookup_insert_if]
        by_cases inside : isClassKey key = true
        · simp [inside,directory,Directory.register]
        · simp [inside,directory,Directory.register]
    · funext label
      show ((s.store target owner).labelIndex.lookup label).getD [] = _
      rw [labelIndex]
      by_cases typed : (Uri.parseTyped target.uri).isSome = true
      · rw [if_pos typed,getD_indexLabels]
        simp [Directory.register,typed,directory]
      · rw [if_neg typed]
        simp [Directory.register,typed,directory]

theorem Separated.applyTier1Event (complete : ∀ keys key, key ∈ order keys ↔ key ∈ keys) (separated : s.Separated)
    (request : DiscoveryRequest) :
    Mirrors (s.applyTier1Event order request) (s.directory.apply request) := by
  cases request with
  | register uri target owner rootService => exact separated.store target owner
  | revoke uri => exact separated.revokeKey uri
  | revokeByOwner processId => exact separated.revokeByOwner complete processId
  | seedDomain domain tenant => exact ⟨{separated with},rfl⟩
  | _ => exact ⟨separated,rfl⟩

/-! Requests of clients never reach a typed key. -/

inductive Revokes (s : DiscoveryStore) : DiscoveryStore → Prop
  | nothing : Revokes s s
  | leaf {uri canonical : Text} (found : s.aliases.lookup uri = some canonical) : Revokes s (s.revokeAlias uri)
  | key {uri : Text} (outside : isClassKey uri = false) : Revokes s (s.revokeKey uri)

theorem revokes_internal (s : DiscoveryStore) (caller : ProcessId) (callerTenant : Option Text) {tenant path : Text}
    (parses : Uri.parseSel uri = some (tenant,path)) : Revokes s (s.revokeInternal caller callerTenant uri tenant path).1 := by
  unfold DiscoveryStore.revokeInternal
  split
  · exact .nothing
  split
  · rename_i canonical found
    unfold revokeLeafAlias
    split
    · exact .nothing
    split
    · exact .nothing
    split
    · exact .nothing
    split
    · exact .nothing
    · exact .leaf found
  · unfold revokeRoute
    split
    · exact .nothing
    rename_i named
    split
    · exact .nothing
    split
    · exact .nothing
    split
    · exact .nothing
    · refine .key ?_
      rw [isClassKey,parses]
      exact Bool.not_eq_true _ ▸ named

theorem revokes_applyRevoke (s : DiscoveryStore) (caller : ProcessId) (callerTenant : Option Text) (uri : Text) :
    Revokes s (s.applyRevoke caller callerTenant uri).1 := by
  unfold DiscoveryStore.applyRevoke
  split
  · rename_i tenant path parses
    exact revokes_internal s caller callerTenant parses
  split
  · exact .nothing
  split
  · exact .nothing
  dsimp only
  split
  · exact .nothing
  · rename_i tenant path parses
    exact revokes_internal s caller callerTenant parses

theorem lookup_outside {β : Type} (outside : isClassKey uri = false) (map : Map Text β) (value : β) (key : Text) :
    (if isClassKey key then (map.insert uri value).lookup key else none) = if isClassKey key then map.lookup key else none := by
  by_cases same : key = uri
  · rw [same,outside]
    rfl
  · rw [AList.lookup_insert_ne same]

section
variable (separated : s.Separated)
include separated

theorem Separated.recordRoute (outside : isClassKey uri = false) (caller : ProcessId) (tenant : Text)
    (target : ResourceTarget) (rootService : Bool) : Mirrors (s.recordRoute caller tenant uri target rootService) s.directory := by
  have registers := lookup_outside outside s.registrations {target with uri := uri}
  constructor
  · refine {separated with keyed := ?_}
    intro key other inside found
    have same := registers key
    rw [if_pos inside,if_pos inside] at same
    exact separated.keyed key other inside (same.symm.trans found)
  · exact Directory.ext (funext registers) (funext (lookup_outside outside s.routeOwners caller)) rfl

theorem Separated.linkAlias (outside : isClassKey uri = false) (canonical : Text) : Mirrors (s.linkAlias uri canonical) s.directory := by
  refine ⟨⟨?_,?_,separated.labels,separated.keyed⟩,rfl⟩
  · intro other key found
    replace found : (s.aliases.insert uri canonical).lookup other = some key := found
    rw [Map.lookup_insert_if] at found
    split_ifs at found with same
    · rw [same]
      exact outside
    · exact separated.aliases other key found
  · intro key uris found
    replace found : (s.aliasBackrefs.insert canonical (if ((s.aliasBackrefs.lookup canonical).getD []).contains uri
      then (s.aliasBackrefs.lookup canonical).getD [] else (s.aliasBackrefs.lookup canonical).getD [] ++ [uri])).lookup key
          = some uris := found
    rw [Map.lookup_insert_if] at found
    split at found
    · cases found
      intro other member
      split at member
      · exact separated.backref_outside member
      · obtain member | rfl := mem_snoc.mp member
        · exact separated.backref_outside member
        · exact outside
    · exact separated.backrefs key uris found

theorem Separated.applyRegister (caller : ProcessId) (callerTenant : Option Text) (target : ResourceTarget)
    (rootAllowed rootService : Bool) : Mirrors (s.applyRegister caller callerTenant target rootAllowed rootService).1 s.directory := by
  unfold DiscoveryStore.applyRegister
  split
  · exact ⟨separated,rfl⟩
  · rename_i uri admits
    have outside : isClassKey uri = false := by
      obtain ⟨translated,_,admits⟩ := Option.bind_eq_some_iff.mp admits
      obtain ⟨⟨tenant,path⟩,parses,admits⟩ := Option.bind_eq_some_iff.mp admits
      dsimp only at admits
      split at admits
      · cases admits
      · split at admits
        · cases admits
        · obtain ⟨first,head,admits⟩ := Option.bind_eq_some_iff.mp admits
          split at admits
          · cases admits
          · rename_i named
            split at admits
            · cases admits
            · cases admits
              rw [isClassKey,parses]
              dsimp only
              rw [head,Option.getD_some]
              simp only [Bool.or_eq_true,not_or,Bool.not_eq_true] at named
              exact named.2
    split
    · exact ⟨separated,rfl⟩
    · rename_i tenant path _
      split
      · exact separated.recordRoute outside caller tenant target rootService
      · dsimp only
        split
        · exact ⟨separated,rfl⟩
        · obtain ⟨linked,same⟩ := separated.linkAlias outside (Uri.resourceUri tenant target.cls target.resourceId)
          obtain ⟨recorded,unchanged⟩ := linked.recordRoute outside caller tenant target rootService
          exact ⟨recorded,unchanged.trans same⟩

theorem Separated.revokes {later : DiscoveryStore} (revokes : Revokes s later) : Mirrors later s.directory := by
  cases revokes with
  | nothing => exact ⟨separated,rfl⟩
  | leaf found => exact separated.revokeAlias (separated.aliases _ _ found)
  | @key uri outside =>
    obtain ⟨next,revoked⟩ := separated.revokeKey uri
    refine ⟨next,revoked.trans (separated.revoke_outside ?_)⟩
    rintro key rfl
    exact outside

theorem Separated.handleRequest (client : ProcessId) (scope : Option (Option Text)) (systemRegistration : Bool)
    (request : DiscoveryRequest) : Mirrors (handleRequest s client scope systemRegistration request).1 s.directory := by
  cases scope with
  | none => exact ⟨separated,rfl⟩
  | some callerTenant =>
    cases request with
    | resolve uri =>
      unfold Discovery.handleRequest
      dsimp only
      split
      · exact ⟨separated,rfl⟩
      · exact ⟨separated,rfl⟩
    | register uri target owner rootService => exact separated.applyRegister client callerTenant target _ rootService
    | revoke uri => exact separated.revokes (revokes_applyRevoke s client callerTenant uri)
    | _ => exact ⟨separated,rfl⟩

end

end DiscoveryStore

def StoreEvent.feed? : StoreEvent → Option DiscoveryRequest
  | .feed request => some request
  | .serve _ _ _ _ => none

namespace DiscoveryStore

theorem Separated.step {order : List Text → List Text} (complete : ∀ keys key, key ∈ order keys ↔ key ∈ keys) {s : DiscoveryStore}
    (separated : s.Separated) (event : StoreEvent) : Mirrors (s.step order event) (event.feed?.elim s.directory s.directory.apply) := by
  cases event with
  | feed request => exact separated.applyTier1Event complete request
  | serve client scope systemRegistration request => exact separated.handleRequest client scope systemRegistration request

theorem Separated.run {order : List Text → List Text} (complete : ∀ keys key, key ∈ order keys ↔ key ∈ keys)
    (events : List StoreEvent) :
    ∀ {s : DiscoveryStore}, s.Separated →
      Mirrors (s.run order events) ((events.filterMap StoreEvent.feed?).foldl Directory.apply s.directory) := by
  induction events with
  | nil => exact fun separated => ⟨separated,rfl⟩
  | cons event rest ih =>
    intro s separated
    obtain ⟨next,same⟩ := separated.step complete event
    obtain ⟨last,directory⟩ := ih next
    refine ⟨last,directory.trans ?_⟩
    rw [same]
    cases event with
    | feed _ | serve _ _ _ _ => rfl

end DiscoveryStore
end Selium.Discovery
