import DependencyDiagram.Proofs.Drawing.Scanning

/-!
# Statements of drawings

A drawing is a named graph of statements: settings, defaults for nodes, nodes, edges and
clusters, which hold statements of their own. A statement ends at a semicolon, and a cluster
reaches from its opening brace to the brace that closes it. The reader keeps the statements of
the clusters that are still open on a stack, so it needs no depth limit, and refuses whatever
does not form a statement. Statements that are written out are read back, however they nest.
-/

namespace DependencyDiagram.Drawing

/-- A statement of a drawing. These are the statements that drawings consist of, not all that the
language has. -/
inductive Statement where
  | setting (key value : String)
  | nodeDefaults (attributes : List (String × String))
  | node (name : String) (attributes : List (String × String))
  | edge (tail head : String) (attributes : List (String × String))
  | cluster (name : String) (body : List Statement)

/-- A whole drawing. What a reader makes of the text of an image, without the layout of its lines. -/
structure Digraph where
  name : String
  body : List Statement

/-- Read attributes up to the closing bracket. -/
def readAssignments? : List Lexeme → Option (List (String × String))
  | [.word key, .equals, .quoted value, .closeBracket] => some [(key, value)]
  | .word key :: .equals :: .quoted value :: .comma :: rest =>
    (readAssignments? rest).map ((key, value) :: ·)
  | _ => none

/-- Read attributes in brackets. -/
def readAttributes? : List Lexeme → Option (List (String × String))
  | [.openBracket, .closeBracket] => some []
  | .openBracket :: rest => readAssignments? rest
  | _ => none

/-- Read what stands in front of a semicolon. -/
def readStatement? : List Lexeme → Option Statement
  | [.word key, .equals, .quoted value] => some (.setting key value)
  | .word keyword :: rest =>
    if keyword = "node" then (readAttributes? rest).map .nodeDefaults else none
  | .quoted tail :: .arrow :: .quoted head :: rest => (readAttributes? rest).map (.edge tail head)
  | .quoted name :: rest => (readAttributes? rest).map (.node name)
  | _ => none

/-- Read what stands in front of an opening brace. -/
def readHeading? (keyword : String) : List Lexeme → Option String
  | [.word word, .quoted name] => if word = keyword then some name else none
  | _ => none

/-- Where the reader stands: inside a body, with the lexemes of an unfinished statement, the statements
before it and the bodies around it, or behind the graph. All come latest first. A closing brace ends the
body on top of the stack; the last one ends the graph, and no lexeme may follow it. -/
inductive Reader where
  | inside (pending : List Lexeme) (body : List Statement) (outer : List (String × List Statement))
  | finished (body : List Statement)

namespace Reader

/-- Close the innermost body. -/
def close (body : List Statement) : List (String × List Statement) → Reader
  | [] => finished body.reverse
  | (name, before) :: outer => inside [] (.cluster name body.reverse :: before) outer

/-- Take one lexeme. -/
def step : Reader → Lexeme → Option Reader
  | inside pending body outer, .semicolon =>
    (readStatement? pending.reverse).map (fun statement => inside [] (statement :: body) outer)
  | inside pending body outer, .openBrace =>
    (readHeading? "subgraph" pending.reverse).map (fun name => inside [] [] ((name, body) :: outer))
  | inside pending body outer, .closeBrace => if pending.isEmpty then some (close body outer) else none
  | inside pending body outer, lexeme => some (inside (lexeme :: pending) body outer)
  | finished _, _ => none

/-- Take lexemes one after the other. -/
def run (reader : Reader) (lexemes : List Lexeme) : Option Reader := lexemes.foldlM step reader

/-- The statements of the graph, once its brace is closed. -/
def finish : Reader → Option (List Statement)
  | finished body => some body
  | inside _ _ _ => none

end Reader

namespace Digraph

/-- The graph that lexemes form. -/
def ofLexemes? : List Lexeme → Option Digraph
  | keyword :: name :: .openBrace :: rest => do
    return ⟨← readHeading? "digraph" [keyword, name], ← (← (Reader.inside [] [] []).run rest).finish⟩
  | _ => none

/-- Read the graph that a text holds. -/
def read? (text : String) : Option Digraph := (lexemes? text).bind ofLexemes?

end Digraph

namespace Statement

mutual

/-- The lexemes of a statement. -/
def lexemes : Statement → List Lexeme
  | setting key value => settingLexemes (key, value)
  | nodeDefaults attributes => .word "node" :: (attributeLexemes attributes ++ [.semicolon])
  | node name attributes => .quoted name :: (attributeLexemes attributes ++ [.semicolon])
  | edge tail head attributes =>
    .quoted tail :: .arrow :: .quoted head :: (attributeLexemes attributes ++ [.semicolon])
  | cluster name body =>
    .word "subgraph" :: .quoted name :: .openBrace :: (lexemesOfAll body ++ [.closeBrace])

/-- The lexemes of statements one after the other. -/
def lexemesOfAll : List Statement → List Lexeme
  | [] => []
  | statement :: rest => lexemes statement ++ lexemesOfAll rest

end

mutual

/-- The statement and everything inside it, depth first. A cluster stands in front of what is inside it. -/
def flatten : Statement → List Statement
  | cluster name body => cluster name body :: flattenAll body
  | statement => [statement]

/-- Statements and everything inside them, depth first. -/
def flattenAll : List Statement → List Statement
  | [] => []
  | statement :: rest => flatten statement ++ flattenAll rest

end

/-- Statements one after the other. -/
theorem lexemesOfAll_append (first second : List Statement) :
    lexemesOfAll (first ++ second) = lexemesOfAll first ++ lexemesOfAll second := by
  induction first with
  | nil => rfl
  | cons statement rest inductionHypothesis =>
    rw [List.cons_append, lexemesOfAll, lexemesOfAll, inductionHypothesis, List.append_assoc]

/-- Statements are flattened one by one. -/
theorem flattenAll_eq (statements : List Statement) :
    flattenAll statements = statements.flatMap flatten := by
  induction statements with
  | nil => rfl
  | cons statement rest inductionHypothesis =>
    rw [flattenAll, List.flatMap_cons, inductionHypothesis]

/-- Statements one after the other are flattened one after the other. -/
theorem flattenAll_append (first second : List Statement) :
    flattenAll (first ++ second) = flattenAll first ++ flattenAll second := by
  simp only [flattenAll_eq, List.flatMap_append]

/-- The name of a cluster and the statements inside it. -/
def block? : Statement → Option (String × List Statement)
  | cluster name body => some (name, body)
  | _ => none

/-- Statements without a cluster among them are flat. -/
theorem flattenAll_of_flat {statements : List Statement}
    (flat : ∀ statement ∈ statements, statement.block? = none) :
    flattenAll statements = statements := by
  induction statements with
  | nil => rfl
  | cons statement rest inductionHypothesis =>
    have later := inductionHypothesis (fun other listed => flat other (List.mem_cons_of_mem _ listed))
    have single : statement.flatten = [statement] := by
      have here := flat statement List.mem_cons_self
      cases statement <;> first | rfl | cases here
    rw [flattenAll, single, later, List.singleton_append]

end Statement

/-- Attributes are read back up to the closing bracket. -/
theorem readAssignments?_lexemes (pair : String × String) (rest : List (String × String)) :
    readAssignments? (assignmentsLexemes (pair :: rest) ++ [.closeBracket]) = some (pair :: rest) := by
  induction rest generalizing pair with
  | nil => rfl
  | cons next further inductionHypothesis =>
    have later := inductionHypothesis next
    rw [assignmentsLexemes, assignmentLexemes]
    simp only [List.cons_append, List.nil_append, readAssignments?, later, Option.map_some]

/-- Attributes in brackets are read back. -/
theorem readAttributes?_lexemes (attributes : List (String × String)) :
    readAttributes? (attributeLexemes attributes) = some attributes := by
  cases attributes with
  | nil => rfl
  | cons pair rest =>
    have read := readAssignments?_lexemes pair rest
    rw [attributeLexemes]
    cases rest <;> exact read

/-- Lexemes that stand inside of a statement. -/
def Lexeme.IsInner (lexeme : Lexeme) : Prop :=
  lexeme ≠ .semicolon ∧ lexeme ≠ .openBrace ∧ lexeme ≠ .closeBrace

/-- The lexemes of an attribute stand inside of a statement. -/
theorem isInner_assignment {pair : String × String} {lexeme : Lexeme}
    (listed : lexeme ∈ assignmentLexemes pair) : lexeme.IsInner := by
  simp only [assignmentLexemes, List.mem_cons, List.not_mem_nil, or_false] at listed
  rcases listed with rfl | rfl | rfl <;> simp [Lexeme.IsInner]

/-- The lexemes of attributes stand inside of a statement. -/
theorem isInner_assignments (attributes : List (String × String)) :
    ∀ lexeme ∈ assignmentsLexemes attributes, lexeme.IsInner := by
  induction attributes with
  | nil => simp [assignmentsLexemes]
  | cons pair rest inductionHypothesis =>
    cases rest with
    | nil => exact fun lexeme => isInner_assignment
    | cons next further =>
      intro lexeme listed
      rw [assignmentsLexemes, List.mem_append, List.mem_cons] at listed
      rcases listed with first | rfl | later
      · exact isInner_assignment first
      · simp [Lexeme.IsInner]
      · exact inductionHypothesis lexeme later

/-- The lexemes of attributes in brackets stand inside of a statement. -/
theorem isInner_attributes (attributes : List (String × String)) :
    ∀ lexeme ∈ attributeLexemes attributes, lexeme.IsInner := by
  intro lexeme listed
  rw [attributeLexemes, List.mem_cons, List.mem_append, List.mem_singleton] at listed
  rcases listed with rfl | inside | rfl
  · simp [Lexeme.IsInner]
  · exact isInner_assignments attributes lexeme inside
  · simp [Lexeme.IsInner]

namespace Reader

variable {body : List Statement} {outer : List (String × List Statement)}

/-- Lexemes are taken one run after the other. -/
theorem run_append {reader : Reader} {first second : List Lexeme} :
    reader.run (first ++ second) = (reader.run first).bind (·.run second) :=
  List.foldlM_append

/-- What stands inside of a statement is kept until the statement ends. -/
theorem run_inner {pending lexemes : List Lexeme} (inner : ∀ lexeme ∈ lexemes, lexeme.IsInner) :
    (inside pending body outer).run lexemes = some (inside (lexemes.reverse ++ pending) body outer) := by
  induction lexemes generalizing pending with
  | nil => rfl
  | cons lexeme rest inductionHypothesis =>
    have kept : (inside pending body outer).step lexeme =
        some (inside (lexeme :: pending) body outer) := by
      obtain ⟨noSemicolon, noOpening, noClosing⟩ := inner lexeme List.mem_cons_self
      cases lexeme <;> first | rfl | contradiction
    have later := @inductionHypothesis (lexeme :: pending)
      (fun other listed => inner other (List.mem_cons_of_mem _ listed))
    rw [run] at later
    rw [run, List.foldlM_cons, kept, Option.bind_eq_bind, Option.bind_some, later, List.reverse_cons,
      List.append_assoc, List.singleton_append]

/-- A statement is added where its semicolon stands. -/
theorem run_ended {lexemes : List Lexeme} {statement : Statement}
    (inner : ∀ lexeme ∈ lexemes, lexeme.IsInner)
    (read : readStatement? lexemes = some statement) :
    (inside [] body outer).run (lexemes ++ [.semicolon]) = some (inside [] (statement :: body) outer) := by
  rw [run_append, run_inner inner, Option.bind_some]
  simp [run, step, read]

/-- A statement about attributes in brackets is added where its semicolon stands. -/
theorem run_attributes (opening : List Lexeme) {attributes : List (String × String)}
    {statement : Statement} (inner : ∀ lexeme ∈ opening, lexeme.IsInner)
    (read : readStatement? (opening ++ attributeLexemes attributes) = some statement) :
    (inside [] body outer).run (opening ++ (attributeLexemes attributes ++ [.semicolon])) =
      some (inside [] (statement :: body) outer) := by
  rw [← List.append_assoc]
  refine run_ended (fun lexeme listed => ?_) read
  exact (List.mem_append.mp listed).elim (inner lexeme) (isInner_attributes attributes lexeme)

/-- The brace that closes a cluster makes it a statement of the body around it. -/
theorem run_closed {inner : List Statement} {name : String} :
    (inside [] inner ((name, body) :: outer)).run [.closeBrace] =
      some (inside [] (.cluster name inner.reverse :: body) outer) := rfl

mutual

/-- A statement that is written out is read back in front of the statements before it. The induction goes
through clusters inside clusters: the statements in front of a cluster wait on the stack while its own
are read, and the closing brace brings them back. -/
theorem run_statement (statement : Statement) (body : List Statement)
    (outer : List (String × List Statement)) :
    (inside [] body outer).run statement.lexemes = some (inside [] (statement :: body) outer) := by
  cases statement with
  | setting key value =>
    exact run_ended (fun lexeme => isInner_assignment) rfl
  | nodeDefaults attributes =>
    refine run_attributes [.word "node"] (by simp [Lexeme.IsInner]) ?_
    have read := readAttributes?_lexemes attributes
    rw [attributeLexemes] at read ⊢
    simp [readStatement?, read]
  | node name attributes =>
    refine run_attributes [.quoted name] (by simp [Lexeme.IsInner]) ?_
    have read := readAttributes?_lexemes attributes
    rw [attributeLexemes] at read ⊢
    simp [readStatement?, read]
  | edge tail head attributes =>
    refine run_attributes [.quoted tail, .arrow, .quoted head]
      (by simp [Lexeme.IsInner]) ?_
    simp [readStatement?, readAttributes?_lexemes]
  | cluster name inner =>
    have opened : (inside [] body outer).run [.word "subgraph", .quoted name, .openBrace] =
        some (inside [] [] ((name, body) :: outer)) := rfl
    have taken := run_statements inner [] ((name, body) :: outer)
    change (inside [] body outer).run ([.word "subgraph", .quoted name, .openBrace] ++
      (Statement.lexemesOfAll inner ++ [.closeBrace])) = _
    rw [run_append, opened, Option.bind_some, run_append, taken, Option.bind_some, run_closed,
      List.append_nil, List.reverse_reverse]

/-- Statements that are written out are read back one after the other. -/
theorem run_statements (statements body : List Statement)
    (outer : List (String × List Statement)) :
    (inside [] body outer).run (Statement.lexemesOfAll statements) =
      some (inside [] (statements.reverse ++ body) outer) := by
  cases statements with
  | nil => rfl
  | cons statement rest =>
    rw [Statement.lexemesOfAll, run_append, run_statement statement body outer, Option.bind_some,
      run_statements rest (statement :: body) outer, List.reverse_cons, List.append_assoc,
      List.singleton_append]

end

end Reader

namespace Digraph

/-- The lexemes of a graph. -/
def lexemes (graph : Digraph) : List Lexeme :=
  .word "digraph" :: .quoted graph.name :: .openBrace ::
    (Statement.lexemesOfAll graph.body ++ [.closeBrace])

/-- A graph that is written out is read back. -/
theorem ofLexemes?_lexemes (graph : Digraph) : ofLexemes? graph.lexemes = some graph := by
  have heading : readHeading? "digraph" [.word "digraph", .quoted graph.name] = some graph.name := rfl
  have ran : (Reader.inside [] [] []).run (Statement.lexemesOfAll graph.body ++ [.closeBrace]) =
      some (.finished graph.body) := by
    rw [Reader.run_append, Reader.run_statements, Option.bind_some, List.append_nil]
    change some (Reader.finished graph.body.reverse.reverse) = _
    rw [List.reverse_reverse]
  simp [ofLexemes?, lexemes, heading, ran, Reader.finish]

end Digraph

end DependencyDiagram.Drawing
