import DeepLink.Proofs.Template.Parentheses

/-!
# Scans outside groups

Splitting at a delimiter, cutting at its first occurrence and taking parentheses off are three scans
that keep a depth, and their subtraction stops at zero. On balanced tokens they tell of the same
groups:

* none of them comes to a subtraction that stops: with the checked depth they do the same
  (`splitFrom?_eq`, `placeFrom?_eq`, `closingLast?_eq`);
* splitting divides the tokens into balanced parts without the delimiter outside groups, and cutting
  finds the end of the first part if there is another (`exists_splitsAs`);
* parentheses are taken off exactly if they hold all the tokens (`insideParens?_eq_some_iff`).
-/

namespace DeepLink

/-! ## Scans with a checked depth -/

/-- The parts between the occurrences of a delimiter outside groups, if the depth can be kept. -/
def splitFrom? (delimiter : Token) (depth : Nat) : List Token → Option (List (List Token))
  | [] => some [[]]
  | t :: rest =>
    if depth = 0 ∧ t = delimiter then (splitFrom? delimiter 0 rest).map ([] :: ·)
    else (t.depthAfter? depth).bind fun next => (splitFrom? delimiter next rest).map (pushToken t)

/-- The number of tokens before the first occurrence of a delimiter outside groups, if the depth can
be kept up to there. -/
def placeFrom? (delimiter : Token) (depth : Nat) : List Token → Option (Option Nat)
  | [] => some none
  | t :: rest =>
    if depth = 0 ∧ t = delimiter then some (some 0)
    else
      (t.depthAfter? depth).bind fun next =>
        (placeFrom? delimiter next rest).map (Option.map (· + 1))

/-- The tokens up to the parenthesis that closes the outermost of `depth` open groups, if it is the
last token, and if the depth can be kept up to there. -/
def closingLast? (depth : Nat) : List Token → Option (Option (List Token))
  | [] => some none
  | t :: rest =>
    (t.depthAfter? depth).bind fun next =>
      if next = 0 then some (if rest = [] then some [] else none)
      else (closingLast? next rest).map (Option.map (t :: ·))

/-- The inside of a pair of parentheses that holds all the tokens, if the depth can be kept. -/
def insideGroup? : List Token → Option (Option (List Token))
  | .mark .openParen :: rest => closingLast? 1 rest
  | _ => some none

section Checked

variable {delimiter : Token} {d e : Nat} {tokens : List Token}

theorem splitFrom?_eq (hd : delimiter.isParen = false) (h : depthThrough? d tokens = some e) :
    splitFrom? delimiter d tokens = some (splitFrom delimiter d tokens) := by
  induction tokens generalizing d with
  | nil => rfl
  | cons t rest ih =>
    obtain ⟨next, ht, hrest⟩ := exists_of_depthThrough?_cons h
    rw [splitFrom?, splitFrom]
    by_cases hcut : d = 0 ∧ t = delimiter
    · obtain ⟨rfl, rfl⟩ := hcut
      obtain rfl : 0 = next := Option.some.inj ((depthAfter?_of_isParen hd 0).symm.trans ht)
      rw [if_pos ⟨rfl, rfl⟩, if_pos ⟨rfl, rfl⟩, ih hrest, Option.map_some]
    · rw [if_neg hcut, if_neg hcut, ht, depthAfter_of_depthAfter? ht, Option.bind_some, ih hrest,
        Option.map_some]

theorem placeFrom?_eq (h : depthThrough? d tokens = some e) :
    placeFrom? delimiter d tokens = some ((cutFrom delimiter d tokens).map (·.1.length)) := by
  induction tokens generalizing d with
  | nil => rfl
  | cons t rest ih =>
    obtain ⟨next, ht, hrest⟩ := exists_of_depthThrough?_cons h
    rw [placeFrom?, cutFrom]
    by_cases hcut : d = 0 ∧ t = delimiter
    · rw [if_pos hcut, if_pos hcut]
      rfl
    · rw [if_neg hcut, if_neg hcut, ht, depthAfter_of_depthAfter? ht, Option.bind_some, ih hrest,
        Option.map_some, Option.map_map, Option.map_map]
      rfl

/-- Inside a group no token closes one that is not open. -/
theorem exists_depthAfter? (hd : d ≠ 0) (t : Token) : ∃ next, t.depthAfter? d = some next := by
  unfold Token.depthAfter?
  split
  · exact ⟨_, rfl⟩
  · exact ⟨_, if_neg hd⟩
  · exact ⟨_, rfl⟩

theorem closingLast?_eq (hd : d ≠ 0) : closingLast? d tokens = some (closingLast d tokens) := by
  induction tokens generalizing d with
  | nil => rfl
  | cons t rest ih =>
    obtain ⟨next, ht⟩ := exists_depthAfter? hd t
    rw [closingLast?, closingLast, ht, depthAfter_of_depthAfter? ht, Option.bind_some]
    by_cases hnext : next = 0
    · rw [if_pos hnext, if_pos hnext]
    · rw [if_neg hnext, if_neg hnext, ih hnext, Option.map_some]

/-- The scan for the end of a group starts inside it, whatever the tokens. -/
theorem insideGroup?_eq (tokens : List Token) :
    insideGroup? tokens = some (insideParens? tokens) := by
  unfold insideGroup?
  split
  · exact closingLast?_eq Nat.one_ne_zero
  · next hne =>
    rw [insideParens?]
    exact hne

end Checked

/-! ## Delimiters outside groups -/

/-- The delimiter stands outside groups: what is before it closes as many groups as it opens. -/
def StandsOutside (delimiter : Token) (tokens : List Token) : Prop :=
  ∃ before after, tokens = before ++ delimiter :: after ∧ openings before = closings before

section Delimiters

variable {delimiter : Token} {tokens : List Token}

/-- Nothing is cut exactly if the depth is not zero wherever the delimiter is. -/
theorem cutFrom_eq_none_iff {d : Nat} :
    cutFrom delimiter d tokens = none ↔
      ∀ before after, tokens = before ++ delimiter :: after →
        before.foldl Token.depthAfter d ≠ 0 := by
  induction tokens generalizing d with
  | nil => simp [cutFrom]
  | cons t rest ih =>
    by_cases hcut : d = 0 ∧ t = delimiter
    · rw [cutFrom, if_pos hcut]
      refine ⟨fun h => absurd h (Option.some_ne_none _), fun h => ?_⟩
      exact absurd hcut.1 (h [] rest (by rw [hcut.2]; rfl))
    · rw [cutFrom_cons hcut, Option.map_eq_none_iff, ih]
      constructor
      · intro h before after he
        cases before with
        | nil =>
          obtain ⟨rfl, -⟩ := List.cons.inj he
          exact fun hd => hcut ⟨hd, rfl⟩
        | cons u before =>
          obtain ⟨rfl, hrest⟩ := List.cons.inj he
          exact h before after hrest
      · intro h before after he
        exact h (t :: before) after (by rw [he]; rfl)

/-- In balanced tokens a delimiter is cut at exactly if it stands outside groups. -/
theorem Balanced.cutOutside_eq_none_iff (h : Balanced tokens) :
    cutOutside delimiter tokens = none ↔ ¬ StandsOutside delimiter tokens := by
  have hfront : ∀ before after, tokens = before ++ delimiter :: after →
      (before.foldl Token.depthAfter 0 = 0 ↔ openings before = closings before) := by
    intro before after he
    have hcount := h.foldl_front (he ▸ List.prefix_append before _)
    omega
  rw [cutOutside, cutFrom_eq_none_iff]
  refine ⟨fun hne ⟨before, after, he, hcount⟩ => ?_, fun hout before after he hzero => ?_⟩
  · exact hne before after he ((hfront before after he).mpr hcount)
  · exact hout ⟨before, after, he, (hfront before after he).mp hzero⟩

/-- Balanced tokens are cut into balanced parts, the first of them without the delimiter outside
groups. -/
theorem Balanced.of_cutOutside (hd : delimiter.isParen = false) (h : Balanced tokens)
    {before after : List Token} (hc : cutOutside delimiter tokens = some (before, after)) :
    tokens = before ++ delimiter :: after ∧ Balanced before ∧
      cutOutside delimiter before = none ∧ Balanced after := by
  unfold cutOutside at hc ⊢
  induction h generalizing before with
  | nil => cases hc
  | @cons t rest ht hr ih =>
    by_cases hcut : 0 = 0 ∧ t = delimiter
    · rw [cutFrom, if_pos hcut] at hc
      cases hc
      exact ⟨by rw [hcut.2]; rfl, .nil, rfl, hr⟩
    · rw [cutFrom_cons hcut, depthAfter_of_isParen ht] at hc
      obtain ⟨⟨front, back⟩, hrest, he⟩ := Option.map_eq_some_iff.mp hc
      obtain ⟨rfl, rfl⟩ := Prod.mk.inj he
      obtain ⟨rfl, hfront, hnone, hback⟩ := ih hrest
      refine ⟨rfl, .cons ht hfront, ?_, hback⟩
      show cutFrom delimiter 0 (t :: front) = none
      rw [cutFrom_cons hcut, depthAfter_of_isParen ht, hnone]
      rfl
  | @group inner rest hi hr _ ih =>
    have hopen : .mark .openParen ≠ delimiter := by
      rintro rfl
      cases hd
    rw [cutFrom_group hopen hi] at hc
    obtain ⟨⟨front, back⟩, hrest, he⟩ := Option.map_eq_some_iff.mp hc
    obtain ⟨rfl, rfl⟩ := Prod.mk.inj he
    obtain ⟨rfl, hfront, hnone, hback⟩ := ih hrest
    have hwhole : .mark .openParen :: (inner ++ [.mark .closeParen]) ++ front =
        .mark .openParen :: (inner ++ .mark .closeParen :: front) := by simp
    refine ⟨by simp, ?_, ?_, hback⟩
    · exact hwhole ▸ .group hi hfront
    · show cutFrom delimiter 0 (_ ++ front) = none
      rw [hwhole, cutFrom_group hopen hi, hnone]
      rfl

end Delimiters

/-! ## Divisions -/

/-- The parts are balanced, the delimiter does not stand outside groups in any of them, and put
together with the delimiter between them they are the tokens. -/
structure Divides (delimiter : Token) (tokens : List Token) (parts : List (List Token)) : Prop where
  balanced : ∀ part ∈ parts, Balanced part
  clear : ∀ part ∈ parts, ¬ StandsOutside delimiter part
  joined : [delimiter].intercalate parts = tokens

section Divisions

variable {delimiter : Token} {tokens : List Token}

theorem Divides.single (hb : Balanced tokens) (hc : ¬ StandsOutside delimiter tokens) :
    Divides delimiter tokens [tokens] :=
  ⟨List.forall_mem_singleton.mpr hb, List.forall_mem_singleton.mpr hc,
    List.intercalate_singleton⟩

theorem Divides.cons {before after first : List Token} {others : List (List Token)}
    (hb : Balanced before) (hc : ¬ StandsOutside delimiter before)
    (h : Divides delimiter after (first :: others)) :
    Divides delimiter (before ++ delimiter :: after) (before :: first :: others) := by
  refine ⟨List.forall_mem_cons.mpr ⟨hb, h.balanced⟩, List.forall_mem_cons.mpr ⟨hc, h.clear⟩, ?_⟩
  rw [List.intercalate_cons_cons, h.joined, List.append_assoc]
  rfl

/-- Splitting divides balanced tokens, and cutting them finds where the first part ends. -/
theorem exists_divides (hd : delimiter.isParen = false) {tokens : List Token}
    (h : Balanced tokens) :
    ∃ first others, Divides delimiter tokens (first :: others) ∧
      splitOutside delimiter tokens = first :: others ∧
      cutOutside delimiter tokens =
        if others = [] then none else some (first, [delimiter].intercalate others) := by
  rw [splitOutside, splitFrom_eq]
  cases hc : cutOutside delimiter tokens with
  | none =>
    have hclear := h.cutOutside_eq_none_iff.mp hc
    unfold cutOutside at hc
    rw [hc]
    exact ⟨tokens, [], .single h hclear, rfl, rfl⟩
  | some parts =>
    obtain ⟨before, after⟩ := parts
    have hlen := length_of_cutOutside hc
    obtain ⟨rfl, hbefore, hnone, hafter⟩ := h.of_cutOutside hd hc
    have hclear := hbefore.cutOutside_eq_none_iff.mp hnone
    obtain ⟨first, others, hdivides, hsplit, -⟩ := exists_divides hd hafter
    unfold cutOutside at hc
    rw [hc]
    refine ⟨before, first :: others, .cons hbefore hclear hdivides,
      congrArg (before :: ·) hsplit, ?_⟩
    rw [if_neg (List.cons_ne_nil first others), hdivides.joined]
termination_by tokens.length

theorem balanced_of_mem_splitOutside (hd : delimiter.isParen = false) (h : Balanced tokens)
    {part : List Token} (hp : part ∈ splitOutside delimiter tokens) : Balanced part := by
  obtain ⟨first, others, hdivides, hsplit, -⟩ := exists_divides hd h
  rw [hsplit] at hp
  exact hdivides.balanced part hp

/-- Splitting and cutting tell of the same parts, `first` and `others`, and with a checked depth
they do so too. -/
structure SplitsAs (delimiter : Token) (tokens first : List Token) (others : List (List Token)) :
    Prop where
  divides : Divides delimiter tokens (first :: others)
  split : splitOutside delimiter tokens = first :: others
  split? : splitFrom? delimiter 0 tokens = some (first :: others)
  cut : cutOutside delimiter tokens =
    if others = [] then none else some (first, [delimiter].intercalate others)
  place? : placeFrom? delimiter 0 tokens = some (if others = [] then none else some first.length)

theorem exists_splitsAs (hd : delimiter.isParen = false) (h : Balanced tokens) :
    ∃ first others, SplitsAs delimiter tokens first others := by
  have hdepth := balanced_iff_depthThrough?.mp h
  obtain ⟨first, others, hdivides, hsplit, hcut⟩ := exists_divides hd h
  refine ⟨first, others, hdivides, hsplit, ?_, hcut, ?_⟩
  · rw [splitFrom?_eq hd hdepth]
    exact congrArg some hsplit
  · unfold cutOutside at hcut
    rw [placeFrom?_eq hdepth, hcut]
    split <;> rfl

end Divisions

/-! ## Parentheses around everything -/

/-- Parentheses are taken off balanced tokens exactly if they hold all of them. -/
theorem Balanced.insideParens?_eq_some_iff {tokens inner : List Token} (h : Balanced tokens) :
    insideParens? tokens = some inner ↔
      tokens = .mark .openParen :: (inner ++ [.mark .closeParen]) ∧ Balanced inner := by
  constructor
  · intro hinside
    rcases h.insideParens?_eq_none_or with hnone | ⟨inner', rfl, hi⟩
    · cases hnone.symm.trans hinside
    · obtain rfl := Option.some.inj ((insideParens?_group hi).symm.trans hinside)
      exact ⟨rfl, hi⟩
  · rintro ⟨rfl, hi⟩
    exact insideParens?_group hi

/-- What is left when parentheses were taken off, if there were any, is balanced. -/
theorem Balanced.getD_insideParens? {tokens : List Token} (h : Balanced tokens) :
    Balanced ((insideParens? tokens).getD tokens) := by
  cases hi : insideParens? tokens with
  | none => exact h
  | some inner => exact (h.insideParens?_eq_some_iff.mp hi).2

end DeepLink
