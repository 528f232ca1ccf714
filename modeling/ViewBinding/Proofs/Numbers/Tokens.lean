import ViewBinding.Java.Plain
import ViewBinding.Proofs.Numbers.Longest
import ViewBinding.Proofs.Tree.Moved

/-!
# Numbers in plain texts

A node of a literal covers one number of the text (`ViewBinding.Java.Node.IsNumber`). In plain texts
this is so for every node that is a literal (`ViewBinding.Java.Plain.isNumber_of_mem_nodes`): it is
made of a token, the token was read as a number where it stands
(`ViewBinding.Java.Lexeme.exists_of_mem_readAll`), and what is read as one number in front of other
text is one by itself.

That literals are made of such tokens is shown for all grammars that make literals of numbers only
(`ViewBinding.Java.Grammar.isExact`). At each point of a reading there are nodes that have been made
and tokens that are left, and all of them are in place (`ViewBinding.Java.InPlace`). Each way to put
a grammar together keeps this if its parts do (`ViewBinding.Java.Grammar.KeepsInPlace`), so every
reading does (`ViewBinding.Java.Grammar.keepsInPlace`).
-/

namespace ViewBinding.Java

open Text

variable {source : String} {kind : Literal} {cs : List Char} {t : Token} {tokens rest : List Token}
  {m n : Node}

/-- **The node is a number of the text**: the characters that it covers are read as one number of
its kind. -/
def Node.IsNumber (source : String) (m : Node) : Prop :=
  ∃ kind cs, m.kind = .literal kind ∧ m.textIn source = .ofList cs ∧
    Lexeme.number? cs = some (kind, cs.length)

/-! ### Tokens -/

namespace Lexeme

theorem number?_of_read? {length : Nat} (h : read? cs = some (.number kind, length)) :
    number? cs = some (kind, length) := by
  unfold read? at h
  dsimp only at h
  split at h
  · cases h
  · split at h
    · have hword := congrArg Prod.fst (Option.some.inj h)
      dsimp only at hword
      split at hword <;> cases hword
    · split at h
      · rename_i hnumber
        cases h
        split at hnumber
        · exact hnumber
        · cases hnumber
      · obtain ⟨sign, -, hsign⟩ := Option.map_eq_some_iff.mp h
        cases hsign

/-- **A token that is a number was read as one** where it stands. -/
theorem exists_of_mem_readAll {fuel start : Nat} (h : readAll fuel start cs = some tokens)
    (ht : t ∈ tokens) (hkind : t.kind = .number kind) :
    ∃ front text back, front ++ text ++ back = cs ∧
      t.extent = ⟨start + byteLength front, start + byteLength front + byteLength text⟩ ∧
      number? (text ++ back) = some (kind, text.length) := by
  induction fuel generalizing start cs tokens with
  | zero =>
    cases cs with
    | nil =>
      cases h
      cases ht
    | cons c cs => cases h
  | succ fuel ih =>
    cases cs with
    | nil =>
      cases h
      cases ht
    | cons c cs =>
      -- the token is one of those that are read after the first characters
      have hlater {start' : Nat} {ds es : List Char} {later : List Token}
          (hsplit : ds ++ es = c :: cs) (hstart : start' = start + byteLength ds)
          (h : readAll fuel start' es = some later) (ht : t ∈ later) :
          ∃ front text back, front ++ text ++ back = c :: cs ∧
            t.extent = ⟨start + byteLength front, start + byteLength front + byteLength text⟩ ∧
            number? (text ++ back) = some (kind, text.length) := by
        obtain ⟨front, text, back, rfl, hextent, hnumber⟩ := ih h ht
        refine ⟨ds ++ front, text, back, by simp [← hsplit], ?_, hnumber⟩
        rw [hextent, hstart, byteLength_append, Nat.add_assoc start]
      have hdrop (length : Nat) : (c :: cs).take length ++ (c :: cs).drop length = c :: cs :=
        List.take_append_drop length _
      unfold readAll at h
      split at h
      · have hsplit : [c] ++ cs = c :: cs := rfl
        exact hlater hsplit (by simp) h ht
      · dsimp only at h
        split at h
        · exact hlater (hdrop _) rfl h ht
        · rename_i k length _ hread
          obtain ⟨later, hlater', rfl⟩ := Option.map_eq_some_iff.mp h
          rcases List.mem_cons.mp ht with rfl | ht
          · cases hkind
            have hnumber := number?_of_read? hread
            refine ⟨[], (c :: cs).take length, (c :: cs).drop length, hdrop length, ?_, ?_⟩
            · simp
            · rw [hdrop, List.length_take_of_le (length_le_of_number? hnumber), hnumber]
          · exact hlater (hdrop _) rfl hlater' ht
        · cases h

end Lexeme

theorem number?_of_mem_tokens (h : tokens? source = some tokens) (ht : t ∈ tokens)
    (hkind : t.kind = .number kind) :
    ∃ cs, t.extent.textIn source = .ofList cs ∧ Lexeme.number? cs = some (kind, cs.length) := by
  have hall {mark cs : List Char} (hsource : source.toList = mark ++ cs)
      (h : Lexeme.readAll cs.length (byteLength mark) cs = some tokens) :
      ∃ cs, t.extent.textIn source = .ofList cs ∧ Lexeme.number? cs = some (kind, cs.length) := by
    obtain ⟨front, text, back, rfl, hextent, hnumber⟩ := Lexeme.exists_of_mem_readAll h ht hkind
    refine ⟨text, ?_, Lexeme.number?_of_append hnumber⟩
    rw [hextent, ← byteLength_append, ← String.ofList_toList (s := source), hsource,
      ← List.append_assoc, ← List.append_assoc, Extent.textIn_append]
  unfold tokens? at h
  split at h
  · rename_i cs hsource
    have hmark : source.toList = ['\uFEFF'] ++ cs := hsource
    exact hall hmark h
  · have hnone : source.toList = [] ++ source.toList := rfl
    exact hall hnone h

/-! ### Nodes -/

/-- Whether a node of the kind is a literal. -/
def Kind.isLiteral : Kind → Bool
  | .literal _ => true
  | _ => false

/-- The literals among the nodes and below them are of kinds and at places in `Q`. -/
def LiteralsAt (Q : Literal → Extent → Prop) (nodes : List Node) : Prop :=
  ∀ n ∈ nodes, ∀ m ∈ n.nodes, ∀ kind, m.kind = .literal kind → Q kind m.extent

/-- **What has been read so far is in place**: the literals made and the numbers still to be read
are of kinds and at places in `Q`. -/
structure InPlace (Q : Literal → Extent → Prop) (nodes : List Node) (tokens : List Token) :
    Prop where
  made : LiteralsAt Q nodes
  left : ∀ t ∈ tokens, ∀ kind, t.kind = .number kind → Q kind t.extent

section InPlace

variable {Q : Literal → Extent → Prop} {k : Kind} {extent : Extent}
  {children made nodes left : List Node}

namespace LiteralsAt

theorem nil : LiteralsAt Q [] :=
  fun _ hn => (List.not_mem_nil hn).elim

theorem append (h : LiteralsAt Q nodes) (hleft : LiteralsAt Q left) :
    LiteralsAt Q (nodes ++ left) :=
  List.forall_mem_append.mpr ⟨h, hleft⟩

/-- One node over others. -/
theorem mk {role : Option Role} {isAbsent : Bool} (hk : ∀ kind, k = .literal kind → Q kind extent)
    (h : LiteralsAt Q children) : LiteralsAt Q [.mk k role extent isAbsent children] := by
  refine List.forall_mem_singleton.mpr fun m hm kind hkind => ?_
  rcases Node.mem_nodes_iff.mp hm with rfl | ⟨c, hc, hm⟩
  · exact hk kind hkind
  · exact h c hc m hm kind hkind

theorem mk_of_not_isLiteral {role : Option Role} {isAbsent : Bool} (hk : (!k.isLiteral) = true)
    (h : LiteralsAt Q children) : LiteralsAt Q [.mk k role extent isAbsent children] := by
  refine mk (fun kind hkind => ?_) h
  subst hkind
  cases hk

theorem withRole {role : Role} (h : LiteralsAt Q nodes) :
    LiteralsAt Q (nodes.map (Node.withRole role)) := by
  refine List.forall_mem_map.mpr fun n hn => ?_
  cases n
  have hself := h _ hn _ (Node.mem_nodes_self _)
  exact mk hself (fun c hc m hm => h _ hn m (Node.mem_nodes_iff.mpr (.inr ⟨c, hc, hm⟩))) _ (.head _)

end LiteralsAt

namespace InPlace

/-- Reading starts again, with no nodes at hand. -/
theorem restart (h : InPlace Q left tokens) : InPlace Q [] tokens :=
  ⟨.nil, h.left⟩

/-- Two readings in turn. -/
theorem append (h : InPlace Q made tokens) (h' : InPlace Q nodes rest) :
    InPlace Q (made ++ nodes) rest :=
  ⟨h.made.append h'.made, h'.left⟩

/-- A token is read as a leaf that is no literal. -/
theorem leaf (h : InPlace Q left tokens) (hk : (!k.isLiteral) = true) (hrest : rest ⊆ tokens) :
    InPlace Q [.leaf k extent] rest :=
  ⟨.mk_of_not_isLiteral hk .nil, fun t ht => h.left t (hrest ht)⟩

/-- A number is read as a literal. -/
theorem literal (h : InPlace Q left (t :: rest)) (hkind : t.kind = .number kind) :
    InPlace Q [.leaf (.literal kind) t.extent] rest := by
  refine ⟨.mk (fun kind' heq => ?_) .nil, fun t' ht' => h.left t' (.tail _ ht')⟩
  cases heq
  exact h.left t (.head _) kind hkind

theorem spanning (h : InPlace Q nodes tokens) (hk : (!k.isLiteral) = true) :
    InPlace Q [.spanning k nodes] tokens :=
  ⟨.mk_of_not_isLiteral hk h.made, h.left⟩

theorem withRole (h : InPlace Q nodes tokens) (part : Role) :
    InPlace Q (nodes.map (.withRole part)) tokens :=
  ⟨h.made.withRole, h.left⟩

end InPlace

namespace Grammar

variable {R : Type} {rules : R → Grammar R} {fuel : Nat} {g first next : Grammar R}
  {parts : List (Grammar R)}

mutual

/-- Whether the grammar makes literals of numbers only. -/
def isExact : Grammar R → Bool
  | name kind | spelled _ kind => !kind.isLiteral
  | number | operator _ | rule _ | kept => true
  | chain parts | choice parts => areExact parts
  | many inner | .unless _ inner | role _ inner | again inner => inner.isExact
  | node kind inner | wrap kind _ inner => !kind.isLiteral && inner.isExact
  | lead first next => first.isExact && next.isExact

/-- Whether all of the grammars make literals of numbers only. -/
def areExact : List (Grammar R) → Bool
  | [] => true
  | g :: gs => g.isExact && areExact gs

end

/-! ### Reading one token -/

theorem subset_of_glued? {last last' : Token} {signs : List String}
    (h : glued? last signs tokens = some (last', rest)) : rest ⊆ tokens := by
  induction signs generalizing last tokens with
  | nil =>
    cases h
    exact List.Subset.refl _
  | cons sign signs ih =>
    cases tokens with
    | nil => cases h
    | cons t tokens =>
      unfold glued? at h
      split at h
      · exact List.Subset.trans (ih h) (List.subset_cons_self _ _)
      · cases h

theorem operator?_eq_some {signs : List String} (h : operator? signs tokens = some (n, rest)) :
    ∃ text extent, n = .leaf (.sign text) extent ∧ rest ⊆ tokens := by
  cases tokens with
  | nil => cases h
  | cons t tokens =>
    simp only [operator?] at h
    split at h
    · split at h
      · rename_i hglued
        split at h
        · cases h
        · cases h
          exact ⟨_, _, rfl, List.Subset.trans (subset_of_glued? hglued) (List.subset_cons_self _ _)⟩
      · cases h
    · cases h

theorem exists_token_of_run_name
    (h : run rules (fuel + 1) (name k) left tokens = some (nodes, rest)) :
    ∃ t, tokens = t :: rest ∧ nodes = [.leaf k t.extent] := by
  cases tokens with
  | nil => cases h
  | cons t tokens =>
    obtain ⟨-, heq⟩ := Option.ite_none_right_eq_some.mp h
    cases heq
    exact ⟨t, rfl, rfl⟩

theorem exists_token_of_run_spelled {text : String}
    (h : run rules (fuel + 1) (spelled text k) left tokens = some (nodes, rest)) :
    ∃ t, tokens = t :: rest ∧ nodes = [.leaf k t.extent] := by
  cases tokens with
  | nil => cases h
  | cons t tokens =>
    obtain ⟨-, heq⟩ := Option.ite_none_right_eq_some.mp h
    cases heq
    exact ⟨t, rfl, rfl⟩

theorem exists_token_of_run_number
    (h : run rules (fuel + 1) number left tokens = some (nodes, rest)) :
    ∃ t kind, tokens = t :: rest ∧ t.kind = .number kind ∧
      nodes = [.leaf (.literal kind) t.extent] := by
  cases tokens with
  | nil => cases h
  | cons t tokens =>
    simp only [run] at h
    split at h
    · rename_i kind hkind
      cases h
      exact ⟨t, kind, rfl, hkind, rfl⟩
    · cases h

theorem exists_sign_of_run_operator {signs : List String}
    (h : run rules (fuel + 1) (operator signs) left tokens = some (nodes, rest)) :
    ∃ text extent, nodes = [.leaf (.sign text) extent] ∧ rest ⊆ tokens := by
  obtain ⟨⟨leaf, others⟩, hoperator, heq⟩ := Option.map_eq_some_iff.mp h
  cases heq
  obtain ⟨text, extent, rfl, hsub⟩ := operator?_eq_some hoperator
  exact ⟨text, extent, rfl, hsub⟩

/-! ### Reading by parts -/

/-- **Reading with that fuel keeps all in place**, by whatever exact grammar. -/
def KeepsInPlace (rules : R → Grammar R) (Q : Literal → Extent → Prop) (fuel : Nat) : Prop :=
  ∀ ⦃g : Grammar R⦄ ⦃left nodes : List Node⦄ ⦃tokens rest : List Token⦄, g.isExact = true →
    InPlace Q left tokens → run rules fuel g left tokens = some (nodes, rest) →
      InPlace Q nodes rest

namespace KeepsInPlace

/-- What is read first and what is read next, with all nodes together. -/
theorem run_both (keeps : KeepsInPlace rules Q fuel) {middle : List Token}
    (hfirst : first.isExact = true) (hnext : next.isExact = true) (h : InPlace Q left tokens)
    (hmade : run rules fuel first [] tokens = some (made, middle))
    (hnodes : run rules fuel next [] middle = some (nodes, rest)) :
    InPlace Q (made ++ nodes) rest := by
  have hmiddle : InPlace Q made middle := keeps hfirst h.restart hmade
  exact hmiddle.append (keeps hnext hmiddle.restart hnodes)

theorem run_chain (keeps : KeepsInPlace rules Q fuel) (hg : (chain parts).isExact = true)
    (h : InPlace Q left tokens)
    (hrun : run rules (fuel + 1) (chain parts) left tokens = some (nodes, rest)) :
    InPlace Q nodes rest := by
  cases parts with
  | nil =>
    cases hrun
    exact h.restart
  | cons part parts =>
    obtain ⟨hpart, hparts⟩ : part.isExact = true ∧ (chain parts).isExact = true :=
      Bool.and_eq_true_iff.mp hg
    obtain ⟨⟨made, middle⟩, hmade, hrun⟩ := Option.bind_eq_some_iff.mp hrun
    obtain ⟨⟨others, last⟩, hothers, hrun⟩ := Option.bind_eq_some_iff.mp hrun
    cases hrun
    exact keeps.run_both hpart hparts h hmade hothers

theorem run_many (keeps : KeepsInPlace rules Q fuel) (hg : (many g).isExact = true)
    (h : InPlace Q left tokens)
    (hrun : run rules (fuel + 1) (many g) left tokens = some (nodes, rest)) :
    InPlace Q nodes rest := by
  have heach : g.isExact = true := hg
  simp only [run] at hrun
  split at hrun
  · cases hrun
    exact h.restart
  · rename_i made middle hmade
    obtain ⟨⟨others, last⟩, hothers, hrun⟩ := Option.bind_eq_some_iff.mp hrun
    cases hrun
    exact keeps.run_both heach hg h hmade hothers

theorem run_choice (keeps : KeepsInPlace rules Q fuel) (hg : (choice parts).isExact = true)
    (h : InPlace Q left tokens)
    (hrun : run rules (fuel + 1) (choice parts) left tokens = some (nodes, rest)) :
    InPlace Q nodes rest := by
  cases parts with
  | nil => cases hrun
  | cons part parts =>
    obtain ⟨hpart, hparts⟩ : part.isExact = true ∧ (choice parts).isExact = true :=
      Bool.and_eq_true_iff.mp hg
    rcases Option.or_eq_some_iff.mp hrun with hrun | ⟨-, hrun⟩
    · exact keeps hpart h hrun
    · exact keeps hparts h hrun

/-! ### Reading with nodes at hand -/

theorem run_lead (keeps : KeepsInPlace rules Q fuel) (hg : (lead first next).isExact = true)
    (h : InPlace Q left tokens)
    (hrun : run rules (fuel + 1) (lead first next) left tokens = some (nodes, rest)) :
    InPlace Q nodes rest := by
  obtain ⟨hfirst, hnext⟩ := Bool.and_eq_true_iff.mp hg
  obtain ⟨⟨made, middle⟩, hmade, hrun⟩ := Option.bind_eq_some_iff.mp hrun
  -- the nodes of the first are at hand for the second
  exact keeps hnext (keeps hfirst h.restart hmade) hrun

theorem run_again (keeps : KeepsInPlace rules Q fuel) (hg : (again next).isExact = true)
    (h : InPlace Q left tokens)
    (hrun : run rules (fuel + 1) (again next) left tokens = some (nodes, rest)) :
    InPlace Q nodes rest := by
  have hnext : next.isExact = true := hg
  simp only [run] at hrun
  split at hrun
  · cases hrun
    exact h
  · rename_i made middle hmade
    exact keeps hg (keeps hnext h hmade) hrun

theorem run_wrap (keeps : KeepsInPlace rules Q fuel) {part : Option Role}
    (hg : (wrap k part g).isExact = true) (h : InPlace Q left tokens)
    (hrun : run rules (fuel + 1) (wrap k part g) left tokens = some (nodes, rest)) :
    InPlace Q nodes rest := by
  obtain ⟨hk, hinner⟩ := Bool.and_eq_true_iff.mp hg
  obtain ⟨⟨made, others⟩, hmade, hrun⟩ := Option.bind_eq_some_iff.mp hrun
  have hothers : InPlace Q made others := keeps hinner h.restart hmade
  cases hrun
  cases part with
  | none => exact (h.append hothers).spanning hk
  | some part => exact ((h.withRole part).append hothers).spanning hk

/-! ### Making nodes of others -/

theorem run_node (keeps : KeepsInPlace rules Q fuel) (hg : (node k g).isExact = true)
    (h : InPlace Q left tokens)
    (hrun : run rules (fuel + 1) (node k g) left tokens = some (nodes, rest)) :
    InPlace Q nodes rest := by
  obtain ⟨hk, hinner⟩ := Bool.and_eq_true_iff.mp hg
  obtain ⟨⟨made, others⟩, hmade, hrun⟩ := Option.bind_eq_some_iff.mp hrun
  cases hrun
  exact (keeps hinner h.restart hmade).spanning hk

theorem run_role (keeps : KeepsInPlace rules Q fuel) {part : Role}
    (hg : (role part g).isExact = true) (h : InPlace Q left tokens)
    (hrun : run rules (fuel + 1) (role part g) left tokens = some (nodes, rest)) :
    InPlace Q nodes rest := by
  have hinner : g.isExact = true := hg
  obtain ⟨⟨made, others⟩, hmade, hrun⟩ := Option.bind_eq_some_iff.mp hrun
  cases hrun
  exact (keeps hinner h.restart hmade).withRole part

theorem run_unless (keeps : KeepsInPlace rules Q fuel) {kinds : List Kind}
    (hg : (Grammar.unless kinds g).isExact = true) (h : InPlace Q left tokens)
    (hrun : run rules (fuel + 1) (.unless kinds g) left tokens = some (nodes, rest)) :
    InPlace Q nodes rest := by
  have hinner : g.isExact = true := hg
  obtain ⟨⟨made, others⟩, hmade, hrun⟩ := Option.bind_eq_some_iff.mp hrun
  obtain ⟨-, heq⟩ := Option.ite_none_left_eq_some.mp hrun
  cases heq
  exact keeps hinner h.restart hmade

end KeepsInPlace

/-! ### Reading -/

/-- **Literals are made of numbers**, so they stand where tokens do. -/
theorem keepsInPlace (hrules : ∀ r, (rules r).isExact = true) (Q : Literal → Extent → Prop)
    (fuel : Nat) : KeepsInPlace rules Q fuel := by
  induction fuel with
  | zero =>
    -- without fuel nothing is read
    intro g left nodes tokens rest hg h hrun
    cases hrun
  | succ fuel keeps =>
    intro g left nodes tokens rest hg h hrun
    cases g with
    | name kind =>
      obtain ⟨t, rfl, rfl⟩ := exists_token_of_run_name hrun
      exact h.leaf hg (List.subset_cons_self _ _)
    | number =>
      obtain ⟨t, kind, rfl, hkind, rfl⟩ := exists_token_of_run_number hrun
      exact h.literal hkind
    | spelled text kind =>
      obtain ⟨t, rfl, rfl⟩ := exists_token_of_run_spelled hrun
      exact h.leaf hg (List.subset_cons_self _ _)
    | operator signs =>
      obtain ⟨text, extent, rfl, hrest⟩ := exists_sign_of_run_operator hrun
      exact h.leaf rfl hrest
    | rule r => exact keeps (hrules r) h hrun
    | chain parts => exact keeps.run_chain hg h hrun
    | choice parts => exact keeps.run_choice hg h hrun
    | many each => exact keeps.run_many hg h hrun
    | «unless» kinds inner => exact keeps.run_unless hg h hrun
    | node kind inner => exact keeps.run_node hg h hrun
    | role part inner => exact keeps.run_role hg h hrun
    | lead first next => exact keeps.run_lead hg h hrun
    | again next => exact keeps.run_again hg h hrun
    | kept =>
      cases hrun
      exact h
    | wrap kind part inner => exact keeps.run_wrap hg h hrun

end Grammar

end InPlace

theorem Plain.isExact_grammar (r : Phrase) : (Plain.grammar r).isExact = true := by
  cases r with
  | type => rfl
  | annotationUse => rfl
  | sum level =>
    have hchoice (operators : List (List String)) :
        Grammar.areExact (operators.map Grammar.operator : List (Grammar Phrase)) = true := by
      induction operators with
      | nil => rfl
      | cons operator operators ih => exact ih
    simp only [Plain.grammar, Plain.sum]
    split
    · rfl
    · rename_i operators _
      simp [Grammar.grow, Grammar.isExact, Grammar.areExact, hchoice, Kind.isLiteral]
  | operand => rfl
  | typeDeclaration => rfl

theorem Plain.isExact_declarations : Plain.declarations.isExact = true := rfl

/-- **In a plain text every literal is a number of the text.** -/
theorem Plain.isNumber_of_mem_nodes {root : Node} (h : Plain.tree? source = some root)
    (hm : m ∈ root.nodes) (hkind : m.kind = .literal kind) : m.IsNumber source := by
  obtain ⟨tokens, htokens, h⟩ := Option.bind_eq_some_iff.mp h
  obtain ⟨⟨nodes, rest⟩, hrun, h⟩ := Option.bind_eq_some_iff.mp h
  let Q (kind : Literal) (extent : Extent) : Prop :=
    ∃ cs, extent.textIn source = .ofList cs ∧ Lexeme.number? cs = some (kind, cs.length)
  have htokens : InPlace Q [] tokens :=
    ⟨.nil, fun t ht kind hkind => number?_of_mem_tokens htokens ht hkind⟩
  have hnodes : InPlace Q nodes rest :=
    Grammar.keepsInPlace Plain.isExact_grammar Q _ Plain.isExact_declarations htokens hrun
  cases rest with
  | cons t rest => cases h
  | nil =>
    cases h
    have hroot : LiteralsAt Q [.mk .program none (Plain.whole source) false nodes] :=
      .mk_of_not_isLiteral rfl hnodes.made
    obtain ⟨cs, htext, hnumber⟩ := hroot _ (.head _) m hm kind hkind
    exact ⟨kind, cs, hkind, htext, hnumber⟩

end ViewBinding.Java
