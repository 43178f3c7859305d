/-
Reading the text of a pattern, and of the comprehensions over it.

A pattern is read node by node: after each of them either a relationship
begins, or the pattern has ended (`ReadsHops`). The condition of a
comprehension and what it makes are read behind its pattern or its list; both
may be missing.
-/
import PropertyGraphQL.Proofs.Readability.Expression

namespace PropertyGraphQL.Cypher

-- ================================================================ patterns

/-- What would go on with a pattern. -/
def afterPattern : List String := ["-[", "<-["]

/-- A variable is read back, if there is one. -/
theorem reads_optionalIdentifier (name? : Option String) {ts : List Token}
    (hts : identifier? ts = none) :
    optionalIdentifier (tokensOf (binderLexemes name?) ++ ts) = (name?, ts) := by
  cases name? with
  | none =>
    cases ts with
    | nil => rfl
    | cons t ts =>
      cases t with
      | identifier name => cases hts
      | _ => rfl
  | some name => rfl

/-- Labels are read back, up to what is no colon. -/
theorem many_labelLexemes (labels : List String) {rest : List Token}
    (hrest : skip? ":" rest = none) :
    many Readers.label (tokensOf (labelLexemes labels) ++ rest) = (labels, rest) := by
  induction labels with
  | nil =>
    refine many_nil ?_
    show (skip? ":" rest).bind identifier? = none
    rw [hrest]
    rfl
  | cons name labels ih =>
    have htokens : tokensOf (labelLexemes (name :: labels)) ++ rest
        = plainTokens ":" ++ (.identifier name :: (tokensOf (labelLexemes labels) ++ rest)) := rfl
    have hlabel : Readers.label
        (plainTokens ":" ++ (.identifier name :: (tokensOf (labelLexemes labels) ++ rest)))
          = some (name, tokensOf (labelLexemes labels) ++ rest) := by
      unfold Readers.label
      rw [skip?_plain]
      rfl
    have hlen : (plainTokens ":").length = 1 := rfl
    rw [htokens, many_cons hlabel (by simp only [List.length_append, List.length_cons]; omega), ih]

/-- A relationship is read back with its direction, variable and types. -/
theorem reads_relationship (r : RelationshipPattern) (rest : List Token) :
    Readers.relationship (tokensOf r.lexemes ++ rest) = some (r, rest) := by
  obtain ⟨binder, relType, direction⟩ := r
  have hbody : ∀ (direction : Direction) (close : String),
      Readers.relationshipBody direction close (tokensOf (binderLexemes binder)
        ++ (plainTokens ":" ++ .identifier relType :: (plainTokens close ++ rest)))
      = some (⟨binder, relType, direction⟩, rest) := by
    intro direction close
    have hcolon : identifier?
        (plainTokens ":" ++ .identifier relType :: (plainTokens close ++ rest)) = none := rfl
    have hbinder := reads_optionalIdentifier binder hcolon
    simp only [Readers.relationshipBody, Readers.label, hbinder, identifier?, skip?_plain,
      Option.bind_eq_bind, Option.bind_some]
  -- the two directions differ in the arrows around one body
  cases direction with
  | outgoing =>
    have htokens : tokensOf (RelationshipPattern.lexemes ⟨binder, relType, .outgoing⟩) ++ rest
        = plainTokens "-[" ++ (tokensOf (binderLexemes binder)
          ++ (plainTokens ":" ++ .identifier relType :: (plainTokens "]->" ++ rest))) := by
      simp only [RelationshipPattern.lexemes, tokensOf_append, tokensOf_plain,
        tokensOf_identifier, tokensOf_nil, List.append_assoc, List.nil_append, List.cons_append]
    rw [htokens]
    unfold Readers.relationship
    rw [skip?_plain]
    exact hbody .outgoing "]->"
  | incoming =>
    have htokens : tokensOf (RelationshipPattern.lexemes ⟨binder, relType, .incoming⟩) ++ rest
        = plainTokens "<-[" ++ (tokensOf (binderLexemes binder)
          ++ (plainTokens ":" ++ .identifier relType :: (plainTokens "]-" ++ rest))) := by
      simp only [RelationshipPattern.lexemes, tokensOf_append, tokensOf_plain,
        tokensOf_identifier, tokensOf_nil, List.append_assoc, List.nil_append, List.cons_append]
    rw [htokens]
    unfold Readers.relationship
    rw [skip?_eq_none (by decide), skip?_plain]
    exact hbody .incoming "]-"

/-- The entries of a node, if there are any. -/
theorem reads_properties {groups : List (List Lexeme)} {entries : List (String × Expression)}
    (h : ReadEach Readers.entry afterExpression groups entries)
    (hstart : ∀ group ∈ groups, ∀ rest, skip? "\x7d" (tokensOf group ++ rest) = none)
    {n : Nat} {rest : List Token} (hrest : skip? " \x7b" rest = none)
    (hn : (tokensOf (if groups.isEmpty then [] else
      .plain " \x7b" :: separated ", " groups ++ [.plain "\x7d"]) ++ rest).length < n) :
    (readersBelow n).properties (tokensOf (if groups.isEmpty then [] else
        .plain " \x7b" :: separated ", " groups ++ [.plain "\x7d"]) ++ rest)
      = some (entries, rest) := by
  cases h with
  | nil =>
    have hnone : tokensOf (if ([] : List (List Lexeme)).isEmpty then [] else
        .plain " \x7b" :: separated ", " [] ++ [.plain "\x7d"]) ++ rest = rest := rfl
    unfold Readers.properties
    rw [hnone, hrest]
  | @cons group groups x xs hgroup hgroups =>
    have hne : (group :: groups).isEmpty ≠ true := nofun
    rw [if_neg hne, List.cons_append, tokensOf_plain, List.append_assoc, tokensOf_closed] at hn ⊢
    have hentries := listUntil_reads (.cons hgroup hgroups) hstart (by decide) (by decide)
      (length_behind hn)
    unfold Readers.properties
    rw [skip?_plain]
    exact hentries

/-- A node is read back if the entries of its map are. -/
theorem reads_node (binder : Option String) (labels : List String) {groups : List (List Lexeme)}
    {entries : List (String × Expression)}
    (h : ReadEach Readers.entry afterExpression groups entries)
    (hstart : ∀ group ∈ groups, ∀ rest, skip? "\x7d" (tokensOf group ++ rest) = none) :
    Reads Readers.node [] (.plain "(" :: binderLexemes binder ++ labelLexemes labels
      ++ (if groups.isEmpty then [] else
        .plain " \x7b" :: separated ", " groups ++ [.plain "\x7d"]) ++ [.plain ")"])
      ⟨binder, labels, entries⟩ := by
  intro n rest _ hn
  generalize hproperties : (if groups.isEmpty then [] else
    .plain " \x7b" :: separated ", " groups ++ [.plain "\x7d"]) = properties at hn ⊢
  simp only [tokensOf_append, tokensOf_plain, tokensOf_nil, List.append_assoc,
    List.nil_append, List.cons_append] at hn ⊢
  -- properties, or the parenthesis that closes, are neither labels nor a name
  have hbehind : skip? ":" (tokensOf properties ++ (plainTokens ")" ++ rest)) = none
      ∧ identifier? (tokensOf properties ++ (plainTokens ")" ++ rest)) = none := by
    rw [← hproperties]
    split
    · exact ⟨skip?_eq_none (by decide) _, rfl⟩
    · rw [List.cons_append, tokensOf_plain, List.append_assoc]
      exact ⟨skip?_eq_none (by decide) _, rfl⟩
  have hlabels := many_labelLexemes labels hbehind.1
  have hidentifier : identifier? (tokensOf (labelLexemes labels)
      ++ (tokensOf properties ++ (plainTokens ")" ++ rest))) = none := by
    cases labels with
    | nil => exact hbehind.2
    | cons label labels => rfl
  have hbinder := reads_optionalIdentifier binder hidentifier
  have hentries : (readersBelow n).properties
      (tokensOf properties ++ (plainTokens ")" ++ rest))
        = some (entries, plainTokens ")" ++ rest) := by
    have hlength := length_behind (length_behind (length_behind hn))
    rw [← hproperties] at hlength ⊢
    exact reads_properties h hstart (skip?_eq_none (by decide) _) hlength
  simp only [Readers.node, skip?_plain, hbinder, hlabels, hentries, Option.bind_eq_bind,
    Option.bind_some]

/-- A hop is read back if its node is. -/
theorem reads_hop {r : RelationshipPattern} {lexemes : List Lexeme} {node : NodePattern}
    (h : Reads Readers.node [] lexemes node) :
    Reads Readers.hop [] (r.lexemes ++ lexemes) (r, node) := by
  intro n rest hrest hn
  rw [tokensOf_append, List.append_assoc] at hn ⊢
  have hrelationship := reads_relationship r (tokensOf lexemes ++ rest)
  have hnode := h n rest hrest (length_behind hn)
  simp only [Readers.hop, hrelationship, hnode, Option.bind_eq_bind, Option.bind_some]

/-- Behind a pattern there is no hop. -/
theorem hop_eq_none {r : Readers} {rest : List Token} (h : Ends afterPattern rest) :
    r.hop rest = none := by
  have hout : skip? "-[" rest = none := h.skip _ List.mem_cons_self
  have hin : skip? "<-[" rest = none := h.skip _ (List.mem_cons_of_mem _ List.mem_cons_self)
  simp only [Readers.hop, Readers.relationship, hout, hin, Option.bind_eq_bind, Option.bind_none]

/-- The lexemes are read as the hops of a pattern. -/
def ReadsHops (lexemes : List Lexeme) (hops : List (RelationshipPattern × NodePattern)) : Prop :=
  ∀ n rest, Ends afterPattern rest → (tokensOf lexemes ++ rest).length < n →
    many (readersBelow n).hop (tokensOf lexemes ++ rest) = (hops, rest)

theorem ReadsHops.nil : ReadsHops [] [] :=
  fun _ _ hrest _ => many_nil (hop_eq_none hrest)

/-- An arrow ends a name. -/
theorem endsName_relationship (r : RelationshipPattern) (ts : List Token) :
    EndsName (tokensOf r.lexemes ++ ts) := by
  obtain ⟨binder, relType, direction⟩ := r
  cases direction <;>
  · intro c hc
    cases hc
    rfl

/-- Hops end a name. -/
theorem endsName_hopsLexemes (hops : List (RelationshipPattern × NodePattern))
    {rest : List Token} (h : EndsName rest) :
    EndsName (tokensOf (NodePattern.hopsLexemes hops) ++ rest) := by
  cases hops with
  | nil => exact h
  | cons hop others =>
    obtain ⟨r, node⟩ := hop
    rw [NodePattern.hopsLexemes, List.append_assoc, tokensOf_append, List.append_assoc]
    exact endsName_relationship r _

/-- Hops are read back one after the other. -/
theorem ReadsHops.cons {r : RelationshipPattern} {lexemes : List Lexeme} {node : NodePattern}
    {others : List (RelationshipPattern × NodePattern)}
    {hops : List (RelationshipPattern × NodePattern)} (h : Reads Readers.node [] lexemes node)
    (hothers : ReadsHops (NodePattern.hopsLexemes others) hops) :
    ReadsHops (r.lexemes ++ lexemes ++ NodePattern.hopsLexemes others) ((r, node) :: hops) := by
  intro n rest hrest hn
  rw [tokensOf_append, List.append_assoc] at hn ⊢
  have hends : Ends [] (tokensOf (NodePattern.hopsLexemes others) ++ rest) :=
    ⟨endsName_hopsLexemes others hrest.name, List.forall_mem_nil _⟩
  have hhop := reads_hop (r := r) h n _ hends hn
  have hbehind := hothers n rest hrest (length_behind hn)
  have hlt : (tokensOf (NodePattern.hopsLexemes others) ++ rest).length
      < (tokensOf (r.lexemes ++ lexemes)
          ++ (tokensOf (NodePattern.hopsLexemes others) ++ rest)).length := by
    have hfirst : (tokensOf r.lexemes ++ []).length ≠ 0 := by
      obtain ⟨binder, relType, direction⟩ := r
      cases direction <;> exact Nat.succ_ne_zero _
    rw [List.append_nil] at hfirst
    rw [tokensOf_append]
    simp only [List.length_append]
    omega
  rw [many_cons hhop hlt, hbehind]

/-- A pattern is read back if its first node and its hops are. -/
theorem reads_pattern {lexemes : List Lexeme} {start : NodePattern}
    {others hops : List (RelationshipPattern × NodePattern)}
    (h : Reads Readers.node [] lexemes start)
    (hothers : ReadsHops (NodePattern.hopsLexemes others) hops) :
    Reads Readers.pattern afterPattern (lexemes ++ NodePattern.hopsLexemes others)
      ⟨start, hops⟩ := by
  intro n rest hrest hn
  rw [tokensOf_append, List.append_assoc] at hn ⊢
  have hends : Ends [] (tokensOf (NodePattern.hopsLexemes others) ++ rest) :=
    ⟨endsName_hopsLexemes others hrest.name, List.forall_mem_nil _⟩
  have hstart := h n _ hends hn
  have hhops := hothers n rest hrest (length_behind hn)
  simp only [Readers.pattern, hstart, hhops, Option.bind_eq_bind, Option.bind_some]

-- ========================================================== comprehensions

/-- A comprehension over a pattern is read back if its parts are. -/
theorem reads_patternComprehension {pattern result : List Lexeme} {condition q : Predicate}
    {p : Pattern} {e : Expression} (hpattern : Reads Readers.pattern afterPattern pattern p)
    (hgroup : ∀ rest, ∃ behind, skip? "(" (tokensOf pattern ++ rest) = some behind)
    (hcondition : Reads Readers.condition (" WHERE " :: afterPredicate)
      (whereLexemes " WHERE " condition condition.lexemes) q)
    (hresult : Reads Readers.expression afterExpression result e) :
    ReadsUnsliced (.plain "[" :: pattern ++ whereLexemes " WHERE " condition condition.lexemes
      ++ .plain " | " :: result ++ [.plain "]"]) (.patternComprehension p q e) := by
  refine .of_primary fun n rest _ hn => ?_
  -- behind the pattern stands its condition, or the bar if there is none
  have hbehind : ∀ ts, Ends afterPattern (tokensOf
      (whereLexemes " WHERE " condition condition.lexemes) ++ (plainTokens " | " ++ ts)) := by
    intro ts
    unfold whereLexemes
    split
    · exact Ends.plain (by decide) _
    · rw [tokensOf_plain, List.append_assoc]
      exact Ends.plain (by decide) _
  simp only [tokensOf_append, tokensOf_plain, tokensOf_nil, List.append_assoc,
    List.nil_append, List.cons_append] at hn ⊢
  have hn₁ := length_behind_plain hn
  have hn₂ := length_behind hn₁
  have hn₃ := length_behind (length_behind hn₂)
  have hp := hpattern n _ (hbehind _) hn₁
  have hq := hcondition n _ (Ends.plain (by decide) _) hn₂
  have he := hresult n _ (Ends.plain (by decide) _) hn₃
  obtain ⟨behind, hopen⟩ := hgroup (tokensOf (whereLexemes " WHERE " condition condition.lexemes)
    ++ (plainTokens " | " ++ (tokensOf result ++ (plainTokens "]" ++ rest))))
  show (readersBelow n).primary (.outside '[' :: (tokensOf pattern
    ++ (tokensOf (whereLexemes " WHERE " condition condition.lexemes)
      ++ (plainTokens " | " ++ (tokensOf result ++ (plainTokens "]" ++ rest)))))) = _
  rw [primary_bracket]
  simp only [Readers.bracketed, Readers.patternComprehension, hopen, hp, hq, he, skip?_plain,
    Option.bind_eq_bind, Option.bind_some]

/-- A comprehension over a list is read back if its parts are. -/
theorem reads_listComprehension {binder : String} {source : List Lexeme} {e : Expression}
    {condition q : Predicate} {result result' : Option Expression}
    (hsource : Reads Readers.expression afterExpression source e)
    (hcondition : Reads Readers.condition (" WHERE " :: afterPredicate)
      (whereLexemes " WHERE " condition condition.lexemes) q)
    (hresult : Reads Readers.result (" | " :: afterExpression)
      (Expression.resultLexemes result) result') :
    ReadsUnsliced (.plain "[" :: .identifier binder :: .plain " IN " :: source
      ++ whereLexemes " WHERE " condition condition.lexemes
      ++ Expression.resultLexemes result ++ [.plain "]"])
      (.listComprehension binder e q result') := by
  refine .of_primary fun n rest _ hn => ?_
  -- what may end an expression depends on which of the optional parts follow
  have hbehind : ∀ texts ts, closes texts " | " = true → closes texts "]" = true →
      Ends texts (tokensOf (Expression.resultLexemes result) ++ (plainTokens "]" ++ ts)) := by
    intro texts ts hbar hclose
    cases result with
    | none => exact Ends.plain hclose _
    | some e =>
      rw [Expression.resultLexemes, tokensOf_plain, List.append_assoc]
      exact Ends.plain hbar _
  have hends : ∀ ts, Ends afterExpression (tokensOf
      (whereLexemes " WHERE " condition condition.lexemes)
        ++ (tokensOf (Expression.resultLexemes result) ++ (plainTokens "]" ++ ts))) := by
    intro ts
    unfold whereLexemes
    split
    · exact hbehind _ _ (by decide) (by decide)
    · rw [tokensOf_plain, List.append_assoc]
      exact Ends.plain (by decide) _
  simp only [tokensOf_append, tokensOf_plain, tokensOf_identifier, tokensOf_nil,
    List.append_assoc, List.nil_append, List.cons_append] at hn ⊢
  have hn₁ := length_behind (Nat.lt_of_succ_lt (length_behind_plain hn))
  have hn₂ := length_behind hn₁
  have hn₃ := length_behind hn₂
  have he := hsource n _ (hends _) hn₁
  have hq := hcondition n _ (hbehind _ _ (by decide) (by decide)) hn₂
  have hr := hresult n _ (Ends.plain (by decide) _) hn₃
  -- a quantified name is not taken for a pattern, which would begin with a parenthesis
  have hopen : ∀ ts, skip? "(" (.identifier binder :: ts) = none :=
    fun ts => skip?_eq_none_of_head rfl nofun
  show (readersBelow n).primary (.outside '[' :: .identifier binder :: (plainTokens " IN "
    ++ (tokensOf source ++ (tokensOf (whereLexemes " WHERE " condition condition.lexemes)
      ++ (tokensOf (Expression.resultLexemes result) ++ (plainTokens "]" ++ rest)))))) = _
  rw [primary_bracket]
  simp only [Readers.bracketed, Readers.listComprehension, binding?, identifier?, hopen, he, hq,
    hr, skip?_plain, Option.bind_eq_bind, Option.bind_some]

end PropertyGraphQL.Cypher
