import Selium.Lib.Text

/-! Network endpoint URIs and their component-aware matching. Text is a list of
characters. Unicode lower-casing is the parameter `toLowercase`. -/
namespace Selium.Abi
open Lib.Text

abbrev Text := List Char

/-- The Unicode `White_Space` property, which `str::trim` removes. -/
def isWhitespace (c : Char) : Bool :=
  (9 ≤ c.toNat && c.toNat ≤ 13) || [0x20,0x85,0xA0,0x1680,0x2028,0x2029,0x202F,0x205F,0x3000].contains c.toNat ||
    (0x2000 ≤ c.toNat && c.toNat ≤ 0x200A)

structure NetworkEndpoint where
  scheme : Text
  host : Text
  port : Text
  deriving DecidableEq, Repr

def schemeSeparator : Text := "://".toList

def portValid (port : Text) : Bool :=
  !port.isEmpty && (port == "*".toList || port.all (fun c => c.isDigit || c == ',' || c == ' '))

section
variable (toLowercase : Text → Text)

def normalHost (hostPart : Text) : Text := stripLast '.' (toLowercase hostPart)

def NetworkEndpoint.parse (uri : Text) : Option NetworkEndpoint :=
  match splitOnce schemeSeparator uri with
  | none => none
  | some (scheme,rest) =>
    if scheme != "tcp".toList && scheme != "udp".toList then none
    else
      -- The port is what follows the last colon.
      match rsplitOnce ':' rest with
      | none => none
      | some (hostPart,port) =>
        if !portValid port then none
        else
          let host := normalHost toLowercase hostPart
          if host.isEmpty then none else some ⟨scheme,host,port⟩

end

def hostMatches (grantHost contextHost : Text) : Bool :=
  grantHost == contextHost ||
    match grantHost with
    | '*' :: '.' :: suffix =>
      -- The character before the suffix must be a dot: a label boundary.
      suffix.isSuffixOf contextHost && decide (contextHost.length > suffix.length) &&
        contextHost[contextHost.length - suffix.length - 1]? == some '.'
    | _ => false

def portTokens (port : Text) : List Text := (List.splitOn ',' port).map (trim isWhitespace)

def portMatches (grantPort contextPort : Text) : Bool :=
  grantPort == "*".toList || (portTokens grantPort).any (· == contextPort)

def NetworkEndpoint.prefixMatches (grant context : NetworkEndpoint) : Bool :=
  grant.scheme == context.scheme && hostMatches grant.host context.host && portMatches grant.port context.port

def spelling (scheme hostPart port : Text) : Text := scheme ++ schemeSeparator ++ hostPart ++ ':' :: port

def networkScheme (scheme : Text) : Prop := scheme = "tcp".toList ∨ scheme = "udp".toList

theorem portValid_colon (port : Text) (valid : portValid port = true) : ':' ∉ port := by
  intro member
  simp only [portValid,Bool.and_eq_true,Bool.or_eq_true,beq_iff_eq,List.all_eq_true] at valid
  rcases valid.2 with wildcard | digits
  · rw [wildcard] at member
    exact absurd member (by decide)
  · exact absurd (digits ':' member) (by decide)

theorem portValid_nonempty (port : Text) (valid : portValid port = true) : port ≠ [] := by
  rintro rfl
  exact absurd valid (by decide)

theorem splitOnce_scheme (scheme rest : Text) (network : networkScheme scheme) :
    splitOnce schemeSeparator (scheme ++ schemeSeparator ++ rest) = some (scheme,rest) := by
  rcases network with rfl | rfl <;> simp [splitOnce,schemeSeparator,List.isPrefixOf]

theorem parse_some (toLowercase : Text → Text) (uri : Text) (endpoint : NetworkEndpoint) :
    NetworkEndpoint.parse toLowercase uri = some endpoint ↔
      ∃ hostPart, uri = spelling endpoint.scheme hostPart endpoint.port ∧ networkScheme endpoint.scheme ∧
        portValid endpoint.port = true ∧ endpoint.host = normalHost toLowercase hostPart ∧ endpoint.host ≠ [] := by
  constructor
  · intro parsed
    simp only [NetworkEndpoint.parse] at parsed
    split at parsed
    · contradiction
    rename_i scheme rest cut
    split at parsed
    · contradiction
    rename_i network
    split at parsed
    · contradiction
    rename_i hostPart port last
    split at parsed
    · contradiction
    rename_i valid
    split at parsed
    · contradiction
    rename_i nonempty
    obtain ⟨equal,_⟩ := rsplitOnce_some ':' rest hostPart port last
    cases Option.some.inj parsed
    refine ⟨hostPart,?_,?_,by simpa using valid,rfl,by simpa using nonempty⟩
    · rw [splitOnce_append schemeSeparator uri scheme rest cut,equal]
      simp [spelling]
    · simp only [networkScheme]
      by_contra neither
      simp_all
  · rintro ⟨hostPart,rfl,network,valid,host,nonempty⟩
    have cut := splitOnce_scheme endpoint.scheme (hostPart ++ ':' :: endpoint.port) network
    have last := rsplitOnce_append ':' hostPart endpoint.port (portValid_colon _ valid)
    have kept : (endpoint.scheme != "tcp".toList && endpoint.scheme != "udp".toList) = false := by
      rcases network with same | same <;> simp [same]
    simp only [NetworkEndpoint.parse,spelling,List.append_assoc] at cut ⊢
    rw [cut]
    simp only [kept,last,valid,← host,Bool.not_true,Bool.false_eq_true,if_false,List.isEmpty_iff,nonempty]

theorem suffix_boundary (suffix host : Text) :
    (suffix.isSuffixOf host && decide (host.length > suffix.length) &&
      host[host.length - suffix.length - 1]? == some '.') = true ↔ ('.' :: suffix) <:+ host := by
  simp only [Bool.and_eq_true,List.isSuffixOf_iff_suffix,decide_eq_true_eq,beq_iff_eq]
  constructor
  · rintro ⟨⟨⟨before,rfl⟩,longer⟩,dot⟩
    obtain ⟨init,last,rfl⟩ := (List.eq_nil_or_concat before).resolve_left (by rintro rfl; simp at longer)
    simp only [List.length_append,Nat.add_sub_cancel] at dot
    have same : last = '.' := by simpa using dot
    exact ⟨init,by simp [same]⟩
  · rintro ⟨before,rfl⟩
    refine ⟨⟨⟨before ++ ['.'],by simp⟩,by simp; omega⟩,?_⟩
    have position : (before ++ '.' :: suffix).length - suffix.length - 1 = before.length := by simp; omega
    rw [position]
    simp

theorem hostMatches_iff (grantHost contextHost : Text) :
    hostMatches grantHost contextHost = true ↔
      grantHost = contextHost ∨ ∃ suffix, grantHost = '*' :: '.' :: suffix ∧ ('.' :: suffix) <:+ contextHost := by
  unfold hostMatches
  rw [Bool.or_eq_true,beq_iff_eq]
  apply or_congr_right
  split
  · rename_i suffix
    rw [suffix_boundary]
    simp
  · rename_i other
    constructor
    · simp
    · rintro ⟨suffix,rfl,_⟩
      exact absurd rfl (other suffix)

theorem hostMatches_refl (host : Text) : hostMatches host host = true :=
  (hostMatches_iff host host).mpr (Or.inl rfl)

theorem hostMatches_trans (parent child context : Text) (outer : hostMatches parent child = true)
    (inner : hostMatches child context = true) : hostMatches parent context = true := by
  rw [hostMatches_iff] at *
  rcases outer with rfl | ⟨suffix,rfl,covered⟩
  · exact inner
  rcases inner with rfl | ⟨longer,rfl,admitted⟩
  · exact Or.inr ⟨suffix,rfl,covered⟩
  -- A suffix of a wildcard host that starts with a dot does not reach its star.
  rcases List.suffix_cons_iff.mp covered with whole | shorter
  · exact absurd (List.cons.inj whole).1 (by decide)
  · exact Or.inr ⟨suffix,rfl,shorter.trans admitted⟩

theorem portMatches_iff (grantPort contextPort : Text) :
    portMatches grantPort contextPort = true ↔ grantPort = "*".toList ∨ contextPort ∈ portTokens grantPort := by
  simp [portMatches]

theorem portTokens_chars (port token : Text) (valid : portValid port = true) (list : port ≠ "*".toList)
    (member : token ∈ portTokens port) : ∀ c ∈ token, (c.isDigit || c == ',' || c == ' ') = true := by
  have digits : ∀ c ∈ port, (c.isDigit || c == ',' || c == ' ') = true := by
    simp only [portValid,Bool.and_eq_true,Bool.or_eq_true,beq_iff_eq,List.all_eq_true] at valid ⊢
    exact valid.2.resolve_left list
  obtain ⟨piece,split,rfl⟩ := List.mem_map.mp member
  intro c inside
  exact digits c ((splitOn_piece ',' port piece split).1 (trim_subset isWhitespace piece inside))

theorem portTokens_valid (port token : Text) (valid : portValid port = true) (list : port ≠ "*".toList)
    (member : token ∈ portTokens port) (nonempty : token ≠ []) : portValid token = true := by
  have chars := portTokens_chars port token valid list member
  simp only [portValid,Bool.and_eq_true,Bool.or_eq_true,List.all_eq_true] at chars ⊢
  exact ⟨by simpa using nonempty,Or.inr chars⟩

theorem portTokens_star (port : Text) (valid : portValid port = true) (list : port ≠ "*".toList) :
    "*".toList ∉ portTokens port := by
  intro member
  exact absurd (portTokens_chars port _ valid list member '*' (by decide)) (by decide)

end Selium.Abi
