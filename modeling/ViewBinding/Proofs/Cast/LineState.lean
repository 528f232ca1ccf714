/-!
# Parentheses in a line of Java

A cast stands between two parentheses. Where the second one closes the first is found by reading the
line: a parenthesis in a literal does not count, and a comment or the end of the statement means
that none closes. `ViewBinding.Java.LineState.step` reads one character, and
`ViewBinding.Java.LineState.afterClosing` is what is left of a line behind the parenthesis that
closes.

A text `ViewBinding.Java.IsWhole` if reading it ends where it began: outside of literals and with
all parentheses closed that were opened. These are the texts that can stand between two parentheses
(`ViewBinding.Java.isWhole_iff_afterClosing`). A literal of several lines is not known here, for
all is in one line.
-/

namespace ViewBinding.Java

/-- The quotes that literals stand in. -/
inductive Quote
  | single
  | double
deriving DecidableEq, Repr

/-- The character of a quote. -/
def Quote.mark : Quote → Char
  | single => '\''
  | double => '"'

/-- What has just been read. -/
inductive LineMode
  /-- Anything outside of literals but a slash. -/
  | code
  /-- A slash outside of literals, with which a comment may begin. -/
  | slash
  /-- Part of a literal. -/
  | quoted (quote : Quote)
  /-- A backslash in a literal. -/
  | escaped (quote : Quote)
deriving DecidableEq, Repr

/-- What is known of a line up to a place in it. -/
structure LineState where
  mode : LineMode
  /-- How many parentheses are open. -/
  depth : Nat
deriving DecidableEq, Repr

namespace LineState

/-- At the beginning. -/
def start : LineState :=
  ⟨.code, 0⟩

/-- Reads a character outside of literals; `slashed` says whether it comes after a slash. -/
def stepCode (slashed : Bool) (depth : Nat) (c : Char) : Option LineState :=
  if c = '/' then if slashed then none else some ⟨.slash, depth⟩
  else if c = '*' then if slashed then none else some ⟨.code, depth⟩
  else if c = ';' then none
  else if c = '\'' then some ⟨.quoted .single, depth⟩
  else if c = '"' then some ⟨.quoted .double, depth⟩
  else if c = '(' then some ⟨.code, depth + 1⟩
  else if c = ')' then if depth = 0 then none else some ⟨.code, depth - 1⟩
  else some ⟨.code, depth⟩

/-- Reads a character. There is nothing behind a comment, behind the end of a statement, and behind
a parenthesis that closes what has not been opened. -/
def step (s : LineState) (c : Char) : Option LineState :=
  match s.mode with
  | .code => stepCode false s.depth c
  | .slash => stepCode true s.depth c
  | .quoted quote =>
    if c = quote.mark then some ⟨.code, s.depth⟩
    else if c = '\\' then some ⟨.escaped quote, s.depth⟩
    else some s
  | .escaped quote => some ⟨.quoted quote, s.depth⟩

/-- Reads a text. -/
def read (s : LineState) (cs : List Char) : Option LineState :=
  cs.foldlM step s

/-- The state in which it does not matter any more what the last character was. -/
def settle (s : LineState) : LineState :=
  match s.mode with
  | .slash => ⟨.code, s.depth⟩
  | .escaped quote => ⟨.quoted quote, s.depth⟩
  | _ => s

/-- What follows the parenthesis that closes one in front of the text, read from the state `s`. -/
def afterClosing (s : LineState) : List Char → Option (List Char)
  | [] => none
  | c :: cs =>
    if c = ')' ∧ s.settle = start then some cs
    else
      match s.step c with
      | none => none
      | some t => t.afterClosing cs

@[simp] theorem read_nil (s : LineState) : s.read [] = some s :=
  rfl

@[simp] theorem read_cons (s : LineState) (c : Char) (cs : List Char) :
    s.read (c :: cs) = (s.step c).bind fun t => t.read cs :=
  rfl

theorem read_append (s : LineState) (cs ds : List Char) :
    s.read (cs ++ ds) = (s.read cs).bind fun t => t.read ds := by
  rw [read, List.foldlM_append]
  rfl

@[simp] theorem settle_settle (s : LineState) : s.settle.settle = s.settle := by
  obtain ⟨mode, depth⟩ := s
  cases mode <;> rfl

end LineState

/-- The text can be read from the beginning, and it leaves no literal and no parenthesis open. -/
def IsWhole (cs : List Char) : Prop :=
  (LineState.start.read cs).map LineState.settle = some .start

instance (cs : List Char) : Decidable (IsWhole cs) :=
  inferInstanceAs (Decidable (_ = _))

namespace LineState

variable {s t : LineState} {cs : List Char}

/-- A parenthesis that closes nothing is not read over. -/
theorem step_closing (h : s.settle = start) : s.step ')' = none := by
  obtain ⟨mode, depth⟩ := s
  cases mode with
  | code | slash =>
    obtain rfl : depth = 0 := congrArg LineState.depth h
    rfl
  | quoted | escaped => cases congrArg LineState.mode h

theorem afterClosing_append (h : s.read cs = some t) (ds : List Char) :
    s.afterClosing (cs ++ ds) = t.afterClosing ds := by
  induction cs generalizing s with
  | nil =>
    cases h
    rfl
  | cons c cs ih =>
    rw [read_cons] at h
    obtain ⟨u, hstep, hread⟩ := Option.bind_eq_some_iff.mp h
    rw [List.cons_append, afterClosing, if_neg, hstep]
    · exact ih hread
    · rintro ⟨rfl, hsettle⟩
      rw [step_closing hsettle] at hstep
      cases hstep

/-- What cannot be read over is not read over on the way to a closing parenthesis behind it. -/
theorem read_ne_none_of_afterClosing (h : s.afterClosing (cs ++ [')']) = some []) :
    s.read cs ≠ none := by
  induction cs generalizing s with
  | nil => exact nofun
  | cons c cs ih =>
    rw [List.cons_append, afterClosing] at h
    rw [read_cons]
    split at h
    · cases cs <;> cases h
    · split at h
      · cases h
      · rename_i t hstep
        rw [hstep, Option.bind_some]
        exact ih h

end LineState

/-- **What can stand between two parentheses**: whatever follows, the second one closes the first
one, and the rest of the line is read as what it is. -/
theorem isWhole_iff_afterClosing {cs : List Char} :
    IsWhole cs ↔ ∀ rest, LineState.start.afterClosing (cs ++ ')' :: rest) = some rest := by
  constructor
  · intro h rest
    obtain ⟨s, hread, hsettle⟩ := Option.map_eq_some_iff.mp h
    rw [LineState.afterClosing_append hread, LineState.afterClosing, if_pos ⟨rfl, hsettle⟩]
  · -- with nothing behind it, the closing parenthesis has to be the last one that is read
    intro h
    obtain ⟨s, hread⟩ :=
      Option.ne_none_iff_exists'.mp (LineState.read_ne_none_of_afterClosing (h []))
    have hclosing := h []
    rw [LineState.afterClosing_append hread, LineState.afterClosing] at hclosing
    rw [IsWhole, hread, Option.map_some]
    split at hclosing
    · rename_i hsettle
      rw [hsettle.2]
    · split at hclosing <;> cases hclosing

end ViewBinding.Java
