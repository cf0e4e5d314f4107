import DeepLink.Proofs.Template.Acceptance
import DeepLink.Proofs.Template.GroupFaults
import DeepLink.Proofs.Template.RoundTrip
import DeepLink.Proofs.Template.Tiling

/-!
# Culprits of refused templates

A template is refused for a place in it or for a part of it. The place is that of a stray backslash,
of a parenthesis, or of an empty item; the part is a component or an item, its parentheses pair up,
and it is quoted as it stands in the template. A component that starts with a colon is never the
culprit (`pointsAt_of_ofTemplate?`).
-/

namespace DeepLink

/-- The text of the component or item that an error is about. -/
def TemplateError.quoted? : TemplateError → Option String
  | unexpectedCharacter _ _ => none
  | group _ => none
  | emptyAlternative component => some component
  | emptyGroup component => some component
  | misplacedGroup component => some component
  | invalidParameter component _ => some component
  | emptyQueryItem _ => none
  | invalidQueryItem item _ => some item

/-- The error is not about a parameter of a path. -/
def TemplateError.SparesParameters (e : TemplateError) : Prop :=
  ∀ component fault, e ≠ .invalidParameter component fault

/-- The error quotes a balanced run of the tokens, and not as a parameter. -/
def Quotes (tokens : List Token) (e : TemplateError) : Prop :=
  e.SparesParameters ∧
    ∃ run, run <:+: tokens ∧ run ≠ [] ∧ Balanced run ∧ e.quoted? = some (joinSources run)

theorem Quotes.mono {inner tokens : List Token} {e : TemplateError} (h : Quotes inner e)
    (hi : inner <:+: tokens) : Quotes tokens e := by
  obtain ⟨hp, run, hrun, hne, hb, hq⟩ := h
  exact ⟨hp, run, hrun.trans hi, hne, hb, hq⟩

theorem Balanced.quotes {tokens : List Token} (hb : Balanced tokens) (hne : tokens ≠ [])
    {e : TemplateError} (hp : e.SparesParameters) (hq : e.quoted? = some (joinSources tokens)) :
    Quotes tokens e := ⟨hp, tokens, List.infix_rfl, hne, hb, hq⟩

/-! ## The path -/

namespace Template

section Infixes

variable {before after : List Token} {t : Token}

theorem infix_before : before <:+: before ++ t :: after := (List.prefix_append _ _).isInfix

theorem infix_after : after <:+: before ++ t :: after :=
  ((List.suffix_cons t after).trans (List.suffix_append before _)).isInfix

theorem infix_inside {u : Token} : before <:+: t :: (before ++ [u]) :=
  (List.prefix_append before [u]).isInfix.trans (List.suffix_cons t _).isInfix

end Infixes

theorem eq_of_alternationOf {component : List Token} {left right : List PathNode}
    {e : TemplateError} (h : alternationOf component left right = .error e) :
    e = .emptyAlternative (joinSources component) := by
  unfold alternationOf at h
  split at h
  · exact (Except.error.inj h).symm
  · cases h

theorem eq_of_groupOf {component : List Token} {group : List PathNode} {e : TemplateError}
    (h : groupOf component group = .error e) : e = .emptyGroup (joinSources component) := by
  unfold groupOf at h
  split at h
  · exact (Except.error.inj h).symm
  · cases h

theorem eq_of_literalOf {component : List Token} {e : TemplateError}
    (h : literalOf component = .error e) : e = .misplacedGroup (joinSources component) := by
  unfold literalOf at h
  split at h
  · exact (Except.error.inj h).symm
  · cases h

mutual

/-- An alternation fails in one of its branches or as a whole. -/
theorem quotes_of_branches {α : Type} {tokens before after : List Token}
    (hb : Balanced tokens) (he : tokens = before ++ .mark .pipe :: after)
    (hbefore : ClearOf .pipe before) (hafter : Balanced after) {f : PathNode → α}
    {e : TemplateError}
    (h : (do
      let l ← readPath before
      let r ← readBranch after
      let node ← alternationOf tokens l r
      return f node) = Except.error e) : Quotes tokens e := by
  have hlen := congrArg List.length he
  rw [List.length_append, List.length_cons] at hlen
  rcases bind_eq_error.mp h with hl | ⟨left, -, h⟩
  · exact (quotes_of_readPath (hbefore.sealed pipe_ne_openParen).balanced hl).mono
      (he ▸ infix_before)
  rcases bind_eq_error.mp h with hr | ⟨right, -, h⟩
  · exact (quotes_of_readBranch hafter hr).mono (he ▸ infix_after)
  rcases bind_eq_error.mp h with halt | ⟨node, -, h⟩
  · obtain rfl := eq_of_alternationOf halt
    exact hb.quotes (by simp [he]) (fun _ _ => nofun) rfl
  · cases h
termination_by (tokens.length, 0)

theorem quotes_of_readComponent {tokens : List Token} (hb : Balanced tokens) {e : TemplateError}
    (h : readComponent tokens = .error e) : Quotes tokens e := by
  cases componentForm_of_balanced hb with
  | empty ht hread => cases hread.symm.trans h
  | wildcard ht hread => cases hread.symm.trans h
  | parameter ht hread => cases hread.symm.trans h
  | literal hs hc hread =>
    rcases bind_eq_error.mp (hread.symm.trans h) with hlit | ⟨node, -, hrest⟩
    · obtain rfl := eq_of_literalOf hlit
      exact hb.quotes hs.1 (fun _ _ => nofun) rfl
    · cases hrest
  | bare hs ht hbefore hafter hread =>
    exact quotes_of_branches hb ht hbefore hafter (hread.symm.trans h)
  | optional ht hi hc hread =>
    rcases bind_eq_error.mp (hread.symm.trans h) with hgroup | ⟨group, -, hrest⟩
    · subst ht
      exact (quotes_of_readPath hi hgroup).mono infix_inside
    rcases bind_eq_error.mp hrest with hnode | ⟨node, -, hvalue⟩
    · obtain rfl := eq_of_groupOf hnode
      exact hb.quotes (by simp [ht]) (fun _ _ => nofun) rfl
    · cases hvalue
  | wrapped ht hi he hbefore hafter hread =>
    subst ht
    exact (quotes_of_branches hi he hbefore hafter (hread.symm.trans h)).mono infix_inside
termination_by (tokens.length, 1)

/-- A path is refused for a run of its own tokens. -/
theorem quotes_of_readPath {tokens : List Token} (hb : Balanced tokens) {e : TemplateError}
    (h : readPath tokens = .error e) : Quotes tokens e := by
  rw [readPath_eq] at h
  rcases hb.cutOutside_cases slash_ne_openParen with
    ⟨-, hcut⟩ | ⟨before, after, rfl, hcut, hbefore, hafter⟩
  · rw [hcut] at h
    exact quotes_of_readComponent hb (map_eq_error.mp h)
  · rw [hcut] at h
    rcases bind_eq_error.mp h with hnode | ⟨node, -, h⟩
    · exact (quotes_of_readComponent (hbefore.sealed slash_ne_openParen).balanced hnode).mono
        infix_before
    rcases bind_eq_error.mp h with hrest | ⟨rest, -, h⟩
    · exact (quotes_of_readPath hafter hrest).mono infix_after
    · cases h
termination_by (tokens.length, 2)

theorem quotes_of_readBranch {tokens : List Token} (hb : Balanced tokens) {e : TemplateError}
    (h : readBranch tokens = .error e) : Quotes tokens e := by
  rw [readBranch_eq] at h
  rcases hb.cutOutside_cases pipe_ne_openParen with
    ⟨-, hcut⟩ | ⟨before, after, he, hcut, hbefore, hafter⟩
  · rw [hcut] at h
    exact quotes_of_readPath hb h
  · rw [hcut] at h
    exact quotes_of_branches hb he hbefore hafter h
termination_by (tokens.length, 3)

end

/-! ## The query -/

/-- An item is missing between `before` and `after`: it would follow the start or an ampersand
outside groups, and an ampersand or the end follows. -/
structure MissesItem (before after : List Token) : Prop where
  starts : before = [] ∨ ∃ items, Balanced items ∧ before = items ++ [.mark .ampersand]
  ends : after = [] ∨ ∃ rest, after = .mark .ampersand :: rest

theorem MissesItem.append {item before after : List Token} (hi : Balanced item)
    (h : MissesItem before after) : MissesItem (item ++ .mark .ampersand :: before) after := by
  refine ⟨.inr ?_, h.ends⟩
  rcases h.starts with rfl | ⟨items, hb, rfl⟩
  · exact ⟨item, hi, rfl⟩
  · exact ⟨item ++ .mark .ampersand :: items, .between rfl hi hb, by simp⟩

/-- The place of a missing item in tokens that start at `offset`. -/
def IsMissingAt (offset : Nat) (tokens : List Token) (e : TemplateError) : Prop :=
  ∃ before after, tokens = before ++ after ∧ MissesItem before after ∧
    e = .emptyQueryItem (offset + Token.totalSize before)

/-- The first item is missing or refused, or one of those after it. -/
theorem readItems_cons_eq_error {offset : Nat} {part : List Token} {parts : List (List Token)}
    {e : TemplateError} (h : readItems offset (part :: parts) = .error e) :
    (part = [] ∧ e = .emptyQueryItem offset) ∨
      (part ≠ [] ∧ ∃ fault, e = .invalidQueryItem (joinSources part) fault) ∨
      readItems (offset + Token.totalSize part + 1) parts = .error e := by
  rw [readItems] at h
  split at h
  · next hnil => exact .inl ⟨hnil, (Except.error.inj h).symm⟩
  · next hne =>
    split at h
    · next fault _ => exact .inr (.inl ⟨hne, fault, (Except.error.inj h).symm⟩)
    · exact .inr (.inr (map_eq_error.mp h))

theorem culprit_of_readItems {tokens : List Token} (hb : Balanced tokens) {offset : Nat}
    {e : TemplateError} (h : readItems offset (splitOutside (.mark .ampersand) tokens) = .error e) :
    IsMissingAt offset tokens e ∨ Quotes tokens e := by
  unfold splitOutside at h
  rw [splitFrom_eq] at h
  rcases hb.cutOutside_cases (m := .ampersand) (by decide) with
    ⟨-, hcut⟩ | ⟨item, rest, rfl, hcut, hitem, hrest⟩
  · unfold cutOutside at hcut
    rw [hcut] at h
    rcases readItems_cons_eq_error h with ⟨rfl, rfl⟩ | ⟨hne, fault, rfl⟩ | h
    · exact .inl ⟨[], [], rfl, ⟨.inl rfl, .inl rfl⟩, rfl⟩
    · exact .inr (hb.quotes hne (fun _ _ => nofun) rfl)
    · cases h
  · unfold cutOutside at hcut
    rw [hcut] at h
    have hi := (hitem.sealed (by decide)).balanced
    rcases readItems_cons_eq_error h with ⟨rfl, rfl⟩ | ⟨hne, fault, rfl⟩ | h
    · exact .inl ⟨[], _, rfl, ⟨.inl rfl, .inr ⟨rest, rfl⟩⟩, rfl⟩
    · have hq : Quotes item (.invalidQueryItem (joinSources item) fault) :=
        hi.quotes hne (fun _ _ => nofun) rfl
      exact .inr (hq.mono infix_before)
    · rcases culprit_of_readItems hrest h with ⟨before, after, rfl, hm, rfl⟩ | hq
      · refine .inl ⟨_, after, by simp, hm.append hi, ?_⟩
        have hsize : (Token.mark .ampersand).size = 1 := rfl
        rw [totalSize_append, Token.totalSize, hsize]
        simp only [Nat.add_assoc]
      · exact .inr (hq.mono infix_after)
termination_by tokens.length

theorem culprit_of_readQuery {tokens : List Token} (hb : Balanced tokens) {offset : Nat}
    {e : TemplateError} (h : readQuery offset tokens = .error e) :
    tokens ≠ [] ∧ (IsMissingAt offset tokens e ∨ Quotes tokens e) := by
  unfold readQuery at h
  split at h
  · cases h
  · next hne => exact ⟨hne, culprit_of_readItems hb h⟩

/-! ## The parts of a template -/

/-- After `start` stands the part of the tokens before the first question mark, or the one after
it. -/
inductive IsPart : List Token → List Token → List Token → Prop
  | all {tokens : List Token} (hq : .mark .question ∉ tokens) : IsPart tokens [] tokens
  | path {path query : List Token} (hq : .mark .question ∉ path) :
    IsPart (path ++ .mark .question :: query) [] path
  | query {path query : List Token} (hq : .mark .question ∉ path) :
    IsPart (path ++ .mark .question :: query) (path ++ [.mark .question]) query

theorem queryOffset_eq (path : List Token) :
    queryOffset path = Token.totalSize (path ++ [.mark .question]) := by
  rw [totalSize_append]
  rfl

theorem checkParens_eq_error {offset : Nat} {tokens : List Token} {e : TemplateError}
    (h : checkParens offset tokens = .error e) :
    ∃ fault, IsCulprit offset tokens fault ∧ e = .group fault := by
  obtain ⟨fault, hf, rfl⟩ := mapError_eq_error.mp h
  exact ⟨fault, culprit_of_checkGroups hf, rfl⟩

/-- Tokens are refused for their parentheses, the path before the query, and then for the path or
the query itself. -/
theorem exists_of_readTokens_error {tokens path query : List Token}
    (hp : (cutQuery tokens).1 = path) (hq : (cutQuery tokens).2.getD [] = query)
    {e : TemplateError} (h : readTokens tokens = .error e) :
    (∃ fault, IsCulprit 0 path fault ∧ e = .group fault) ∨
      (∃ fault, IsCulprit (queryOffset path) query fault ∧ e = .group fault) ∨
      Quotes path e ∨
      query ≠ [] ∧ (IsMissingAt (queryOffset path) query e ∨ Quotes query e) := by
  subst hp hq
  unfold readTokens at h
  rcases bind_eq_error.mp h with hpath | ⟨_, hpath, h⟩
  · exact .inl (checkParens_eq_error hpath)
  rcases bind_eq_error.mp h with hquery | ⟨_, hquery, h⟩
  · exact .inr (.inl (checkParens_eq_error hquery))
  rcases bind_eq_error.mp h with hnodes | ⟨_, -, h⟩
  · exact .inr (.inr (.inl (quotes_of_readPath (balanced_of_checkParens hpath) hnodes)))
  rcases bind_eq_error.mp h with hitems | ⟨_, -, h⟩
  · exact .inr (.inr (.inr (culprit_of_readQuery (balanced_of_checkParens hquery) hitems)))
  · cases h

/-- Whatever tokens are refused for, it is no parameter of a path. -/
theorem sparesParameters_of_readTokens {tokens : List Token} {e : TemplateError}
    (h : readTokens tokens = .error e) : e.SparesParameters := by
  rcases exists_of_readTokens_error rfl rfl h with
    ⟨fault, -, rfl⟩ | ⟨fault, -, rfl⟩ | hq | ⟨-, ⟨before, after, -, -, rfl⟩ | hq⟩
  · nofun
  · nofun
  · exact hq.1
  · nofun
  · exact hq.1

end Template

/-! ## Templates -/

open Template

/-- Lexing finds the tokens, and their sources are the template: the sources of some of them in a
row are a part of it, behind as many bytes as the sources before them have. -/
structure Spells (template : String) (tokens : List Token) : Prop where
  lexed : Token.ofTemplate? template = .ok tokens
  joined : joinSources tokens = template

/-- The error names the place of what is wrong in the template, or quotes a part of it. -/
inductive PointsAt (template : String) : TemplateError → Prop
  | unexpectedCharacter {before after : String} (he : template = before ++ "\\" ++ after)
    (hb : WellEscaped before.toList) (ha : Unescapable after.toList) :
    PointsAt template (.unexpectedCharacter before.utf8ByteSize "\\")
  | unbalanced {tokens start before after : List Token} {t : Token} (hs : Spells template tokens)
    (hp : IsPart tokens start (before ++ t :: after)) (ht : Lonely before after t) :
    PointsAt template (.group (.unbalanced (joinSources (start ++ before)).utf8ByteSize))
  | tooDeep {tokens start before after : List Token} (hs : Spells template tokens)
    (hp : IsPart tokens start (before ++ .mark .openParen :: after)) (hbefore : Shallow before)
    (hd : openGroups before = nestingLimit) :
    PointsAt template (.group (.tooDeep (joinSources (start ++ before)).utf8ByteSize))
  | emptyQueryItem {path before after : List Token}
    (hs : Spells template (path ++ .mark .question :: (before ++ after)))
    (hq : .mark .question ∉ path) (hm : MissesItem before after) :
    PointsAt template
      (.emptyQueryItem (joinSources (path ++ .mark .question :: before)).utf8ByteSize)
  | quoted {before run after : List Token} {e : TemplateError}
    (hs : Spells template (before ++ run ++ after)) (hb : Balanced run)
    (hne : joinSources run ≠ "") (he : e.quoted? = some (joinSources run)) : PointsAt template e

theorem utf8ByteSize_joinSources (tokens : List Token) :
    (joinSources tokens).utf8ByteSize = Token.totalSize tokens := by
  induction tokens with
  | nil => rfl
  | cons t rest ih => rw [joinSources, String.utf8ByteSize_append, ih]; rfl

theorem joinSources_ne_empty {tokens : List Token} (hs : Solid tokens) (hne : tokens ≠ []) :
    joinSources tokens ≠ "" := by
  obtain ⟨t, rest, rfl⟩ := List.exists_cons_of_ne_nil hne
  have hpos := Token.size_pos (hs t List.mem_cons_self)
  intro he
  have hsize := utf8ByteSize_joinSources (t :: rest)
  rw [he, Token.totalSize] at hsize
  change 0 = _ at hsize
  omega

section Spells

variable {template : String} {tokens : List Token} (hs : Spells template tokens)

include hs

theorem pointsAt_of_isCulprit {start part : List Token} (hp : IsPart tokens start part)
    {fault : GroupFault} (h : IsCulprit (Token.totalSize start) part fault) :
    PointsAt template (.group fault) := by
  cases h with
  | unbalanced he ht =>
    subst he
    rw [← totalSize_append, ← utf8ByteSize_joinSources]
    exact .unbalanced hs hp ht
  | tooDeep he hbefore hd =>
    subst he
    rw [← totalSize_append, ← utf8ByteSize_joinSources]
    exact .tooDeep hs hp hbefore hd

theorem pointsAt_of_quotes {part : List Token} (hp : part <:+: tokens) {e : TemplateError}
    (h : Quotes part e) : PointsAt template e := by
  obtain ⟨-, run, ⟨before, after, rfl⟩, hne, hb, hq⟩ := h.mono hp
  have hsolid : Solid run := (solid_of_ofTemplate? hs.lexed).of_subset fun t ht => by simp [ht]
  exact .quoted hs hb (joinSources_ne_empty hsolid hne) hq

theorem pointsAt_of_readTokens {e : TemplateError} (h : readTokens tokens = .error e) :
    PointsAt template e := by
  by_cases hq : .mark .question ∈ tokens
  · obtain ⟨path, query, rfl, hpath⟩ := List.eq_append_cons_of_mem hq
    have hcut := cutQuery_append hpath query
    have hsize := queryOffset_eq path
    rcases exists_of_readTokens_error (by rw [hcut]) (by rw [hcut, Option.getD_some]) h with
      ⟨fault, hf, rfl⟩ | ⟨fault, hf, rfl⟩ | hquote | ⟨-, ⟨before, after, rfl, hm, rfl⟩ | hquote⟩
    · exact pointsAt_of_isCulprit hs (.path hpath) hf
    · exact pointsAt_of_isCulprit hs (.query hpath) (hsize ▸ hf)
    · exact pointsAt_of_quotes hs infix_before hquote
    · rw [hsize, ← totalSize_append, List.append_assoc, ← utf8ByteSize_joinSources]
      exact .emptyQueryItem hs hpath hm
    · exact pointsAt_of_quotes hs infix_after hquote
  · have hcut := cutQuery_of_notMem hq
    rcases exists_of_readTokens_error (by rw [hcut]) (by rw [hcut, Option.getD_none]) h with
      ⟨fault, hf, rfl⟩ | ⟨fault, hf, -⟩ | hquote | ⟨hne, -⟩
    · exact pointsAt_of_isCulprit hs (.all hq) hf
    · exact absurd rfl hf.ne_nil
    · exact pointsAt_of_quotes hs List.infix_rfl hquote
    · exact absurd rfl hne

end Spells

theorem pointsAt_of_lexing {template : String} {span : Span}
    (h : Token.ofTemplate? template = .error span) :
    PointsAt template (.unexpectedAt template span) := by
  have hw : ¬ WellEscaped template.toList := by
    intro hw
    obtain ⟨tokens, ht⟩ := (exists_ofTemplate?_iff template).mpr hw
    rw [ht] at h
    cases h
  obtain ⟨before, after, he, hb, ha, hspan⟩ := exists_of_not_wellEscaped hw
  obtain rfl : span = _ := Except.error.inj (h.symm.trans hspan)
  have hslice : Span.slice ⟨before.utf8ByteSize, before.utf8ByteSize + 1⟩ template = "\\" := by
    rw [he]
    exact slice_between before "\\" after
  rw [TemplateError.unexpectedAt, hslice]
  exact .unexpectedCharacter he hb ha

/-- **Culprits of refused templates.** The error for a template points at its culprit: a backslash
that escapes nothing, with the backslash as its snippet, a parenthesis without a partner in the path
or in the query, the first one that nests too deeply there, the place of a missing query item, or a
part of the template with balanced parentheses. Parameters of a path are never the culprit. -/
theorem pointsAt_of_ofTemplate? {template : String} {e : TemplateError}
    (h : Route.ofTemplate? template = .error e) :
    PointsAt template e ∧ ∀ component fault, e ≠ .invalidParameter component fault := by
  unfold Route.ofTemplate? at h
  split at h
  · next span hspan =>
    obtain rfl := Except.error.inj h
    exact ⟨pointsAt_of_lexing hspan, nofun⟩
  · next tokens ht =>
    exact ⟨pointsAt_of_readTokens ⟨ht, joinSources_of_ofTemplate? ht⟩ h,
      sparesParameters_of_readTokens h⟩

/-- The group is closed only after the question mark, so it has no partner in the path; its place
counts the two bytes of the letter before it. The backslash before the line feed escapes nothing. -/
theorem pointsAt_of_ofTemplate?_acrossQuestion :
    Route.ofTemplate? "é(a?b)" = .error (.group (.unbalanced 2)) ∧
      PointsAt "é(a?b)" (.group (.unbalanced 2)) ∧
      Route.ofTemplate? "é\\\n)" = .error (.unexpectedCharacter 2 "\\") ∧
      PointsAt "é\\\n)" (.unexpectedCharacter 2 "\\") := by
  have hgroup : Route.ofTemplate? "é(a?b)" = .error (.group (.unbalanced 2)) := rfl
  have hstray : Route.ofTemplate? "é\\\n)" = .error (.unexpectedCharacter 2 "\\") := rfl
  exact ⟨hgroup, (pointsAt_of_ofTemplate? hgroup).1, hstray, (pointsAt_of_ofTemplate? hstray).1⟩

end DeepLink
