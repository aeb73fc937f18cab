import DependencyDiagram.Drawing.OfImage
import DependencyDiagram.Proofs.Drawing.Statements

/-!
# Drawings of images as graphs

The drawing of an image is one graph whose statements are known one by one: a few settings, a node for
every box, a cluster for every frame with the statements of what is inside it, and an edge for every
edge. The text of the drawing is read back as exactly this graph, whatever characters the identifiers,
labels and tooltips of the image hold, since every key that is written is a word and every value is
quoted.

So a label with quotation marks, backslashes or braces in it, or one that reads like a statement, cannot
change the structure of the drawing.
-/

namespace DependencyDiagram

namespace Drawing

/-- The statement of a line that stands for itself. Opening and closing a cluster are two lines and no
statement; the cluster is one statement with the lines between them. -/
def Line.statements : Line → List Statement
  | setting key value => [.setting key value]
  | nodeStyle attributes => [.nodeDefaults attributes]
  | node name attributes => [.node name attributes]
  | edge tail head attributes => [.edge tail head attributes]
  | openCluster _ _ | closeCluster | blank => []

/-- The attributes of a frame's cluster. -/
def frameAttributes (id : NodeId) (label : String) : List (String × String) :=
  [("id", id.encode), ("label", label), ("href", placeholder)]

/-- Attributes as statements of their own. -/
def settingStatements (attributes : List (String × String)) : List Statement :=
  attributes.map (fun pair => .setting pair.1 pair.2)

mutual

/-- The statements of a node: a box is one statement, and a frame is a cluster around the statements
inside it. Inside a cluster its attributes come first, then the invisible node if there is one, then what
it holds, and last the chain that keeps its boxes in order. -/
def nodeStatements (vertical : Bool) : ImageNode → List Statement
  | .leaf box => (boxLine box).statements
  | .group box => (boxLine box).statements
  | .cluster id label children =>
    [.cluster (clusterName id) (settingStatements (frameAttributes id label) ++
      (anchorLines id children).flatMap Line.statements ++
      (eachNodeStatements vertical children ++
        (chainLines vertical children).flatMap Line.statements))]

/-- The statements of the nodes of a level. -/
def eachNodeStatements (vertical : Bool) : List ImageNode → List Statement
  | [] => []
  | node :: rest => nodeStatements vertical node ++ eachNodeStatements vertical rest

end

/-- The statements in front of the nodes. -/
def preambleStatements (image : Image) (options : ViewOptions) : List Statement :=
  (preamble image options).flatMap Line.statements

/-- The statements of the nodes, with the chain of the boxes on top. -/
def levelStatements (vertical : Bool) (nodes : List ImageNode) : List Statement :=
  eachNodeStatements vertical nodes ++ (chainLines vertical nodes).flatMap Line.statements

/-- The statements of the edges. -/
def edgeStatements (image : Image) : List Statement :=
  (image.edges.map (edgeLine image)).flatMap Line.statements

/-- The graph as which an image is drawn. It is given as a tree of statements, without any text, and is
what the text of the drawing has to be read as. -/
def digraphOf (image : Image) (options : ViewOptions) : Digraph where
  name := options.viewType.word
  body := preambleStatements image options ++ levelStatements options.verticalAlign image.nodes ++
    edgeStatements image

/-- The lines stand for themselves, one by one. Most lines are one statement each, and the lexemes of
these are the same on either side. -/
def Plain (lines : List Line) : Prop :=
  ∀ line ∈ lines, Statement.lexemesOfAll line.statements = line.lexemes

/-- Lines that stand for themselves have the lexemes of their statements. -/
theorem Plain.lexemes {lines : List Line} (plain : Plain lines) :
    lines.flatMap Line.lexemes = Statement.lexemesOfAll (lines.flatMap Line.statements) := by
  induction lines with
  | nil => rfl
  | cons line rest inductionHypothesis =>
    rw [List.flatMap_cons, List.flatMap_cons, Statement.lexemesOfAll_append,
      plain line List.mem_cons_self,
      inductionHypothesis (fun other listed => plain other (List.mem_cons_of_mem _ listed))]

/-- The invisible node of an empty frame stands for itself. -/
theorem plain_anchorLines (id : NodeId) (children : List ImageNode) :
    Plain (anchorLines id children) := by
  intro line listed
  rw [anchorLines] at listed
  split at listed
  · obtain rfl := List.mem_singleton.mp listed
    exact List.append_nil _
  · cases listed

/-- The invisible edges of a chain stand for themselves. -/
theorem plain_chainLines (vertical : Bool) (nodes : List ImageNode) :
    Plain (chainLines vertical nodes) := by
  intro line listed
  rw [chainLines] at listed
  split at listed
  · obtain ⟨⟨tail, head⟩, _, rfl⟩ := List.mem_map.mp listed
    exact List.append_nil _
  · cases listed

/-- Settings have the lexemes of their attributes. -/
theorem lexemes_settingStatements (attributes : List (String × String)) :
    Statement.lexemesOfAll (settingStatements attributes) = attributes.flatMap settingLexemes := by
  induction attributes with
  | nil => rfl
  | cons pair rest inductionHypothesis =>
    rw [List.flatMap_cons, ← inductionHypothesis]
    rfl

mutual

/-- The lines of a node have the lexemes of its statements. -/
theorem lexemes_nodeLines (vertical : Bool) (node : ImageNode) :
    (nodeLines vertical node).flatMap Line.lexemes =
      Statement.lexemesOfAll (nodeStatements vertical node) := by
  cases node with
  | leaf box => rfl
  | group box => rfl
  | cluster id label children =>
    have inside : (anchorLines id children ++
          (eachNodeLines vertical children ++ chainLines vertical children)).flatMap Line.lexemes =
        Statement.lexemesOfAll ((anchorLines id children).flatMap Line.statements ++
          (eachNodeStatements vertical children ++
            (chainLines vertical children).flatMap Line.statements)) := by
      rw [List.flatMap_append, List.flatMap_append, Statement.lexemesOfAll_append,
        Statement.lexemesOfAll_append, (plain_anchorLines id children).lexemes,
        (plain_chainLines vertical children).lexemes, lexemes_eachNodeLines vertical children]
    have settings := lexemes_settingStatements (frameAttributes id label)
    rw [nodeLines, List.flatMap_cons, List.flatMap_append, inside, nodeStatements,
      Statement.lexemesOfAll, Statement.lexemesOfAll, Statement.lexemes, List.append_assoc,
      Statement.lexemesOfAll_append (settingStatements _), settings]
    simp [Line.lexemes, frameAttributes]

/-- The lines of a level have the lexemes of its statements. -/
theorem lexemes_eachNodeLines (vertical : Bool) (nodes : List ImageNode) :
    (eachNodeLines vertical nodes).flatMap Line.lexemes =
      Statement.lexemesOfAll (eachNodeStatements vertical nodes) := by
  cases nodes with
  | nil => rfl
  | cons node rest =>
    rw [eachNodeLines, List.flatMap_append, lexemes_nodeLines vertical node,
      lexemes_eachNodeLines vertical rest, eachNodeStatements, Statement.lexemesOfAll_append]

end

/-- The lines of an image have the lexemes of its graph's statements. -/
theorem lexemes_linesOf (image : Image) (options : ViewOptions) :
    (linesOf image options).flatMap Line.lexemes =
      Statement.lexemesOfAll (digraphOf image options).body := by
  have front : (preamble image options).flatMap Line.lexemes =
      Statement.lexemesOfAll (preambleStatements image options) := by
    cases shown : image.hasParentEdges <;> simp [preamble, preambleStatements, shown, Line.lexemes,
      Line.statements, Statement.lexemesOfAll, Statement.lexemes]
  have edges : Plain (image.edges.map (edgeLine image)) := by
    intro line listed
    obtain ⟨edge, _, rfl⟩ := List.mem_map.mp listed
    exact List.append_nil _
  have gap : [Line.blank].flatMap Line.lexemes = [] := rfl
  simp only [linesOf, levelLines, digraphOf, levelStatements, edgeStatements, List.flatMap_append,
    Statement.lexemesOfAll_append, front, edges.lexemes, gap, List.append_nil,
    (plain_chainLines options.verticalAlign image.nodes).lexemes,
    lexemes_eachNodeLines options.verticalAlign image.nodes]

/-- The keys of all attributes that are written. -/
def writtenKeys : List String :=
  ["shape", "id", "label", "href", "style", "tooltip", "ltail", "lhead", "compound", "rankdir",
    "fontname", "fontsize"]

/-- The keys that are written are words. -/
theorem worded_of_written {attributes : List (String × String)}
    (written : attributes.map Prod.fst ⊆ writtenKeys) : Worded attributes := by
  have words : writtenKeys.all (fun key => key != "" && key.toList.all isWordCharacter) = true := by
    decide
  intro pair listed
  have known := List.all_eq_true.mp words pair.1 (written (List.mem_map_of_mem listed))
  rw [Bool.and_eq_true, bne_iff_ne, List.all_eq_true] at known
  exact ⟨known.1, known.2⟩

/-- The keys of a box are words. -/
theorem worded_boxLine (box : ImageBox) : Worded (boxLine box).attributes := by
  have known : ["shape", "id", "label", "href"] ⊆ writtenKeys := by decide
  exact worded_of_written known

/-- The keys of an invisible node are words. -/
theorem worded_anchorLines (id : NodeId) (children : List ImageNode) :
    ∀ line ∈ anchorLines id children, Worded line.attributes := by
  intro line listed
  rw [anchorLines] at listed
  split at listed
  · obtain rfl := List.mem_singleton.mp listed
    have known : ["shape", "style"] ⊆ writtenKeys := by decide
    exact worded_of_written known
  · cases listed

/-- The keys of the invisible edges of a chain are words. -/
theorem worded_chainLines (vertical : Bool) (nodes : List ImageNode) :
    ∀ line ∈ chainLines vertical nodes, Worded line.attributes := by
  intro line listed
  rw [chainLines] at listed
  split at listed
  · obtain ⟨⟨tail, head⟩, _, rfl⟩ := List.mem_map.mp listed
    have known : ["style"] ⊆ writtenKeys := by decide
    exact worded_of_written known
  · cases listed

mutual

/-- The keys in the lines of a node are words. -/
theorem worded_nodeLines (vertical : Bool) (node : ImageNode) :
    ∀ line ∈ nodeLines vertical node, Worded line.attributes := by
  intro line listed
  cases node with
  | leaf box =>
    obtain rfl := List.mem_singleton.mp listed
    exact worded_boxLine box
  | group box =>
    obtain rfl := List.mem_singleton.mp listed
    exact worded_boxLine box
  | cluster id label children =>
    simp only [nodeLines, List.mem_cons, List.mem_append, List.not_mem_nil, or_false] at listed
    rcases listed with rfl | (anchor | inside | chain) | rfl
    · have known : ["id", "label", "href"] ⊆ writtenKeys := by decide
      exact worded_of_written known
    · exact worded_anchorLines id children line anchor
    · exact worded_eachNodeLines vertical children line inside
    · exact worded_chainLines vertical children line chain
    · exact worded_of_written (List.nil_subset _)

/-- The keys in the lines of a level are words. -/
theorem worded_eachNodeLines (vertical : Bool) (nodes : List ImageNode) :
    ∀ line ∈ eachNodeLines vertical nodes, Worded line.attributes := by
  intro line listed
  cases nodes with
  | nil => cases listed
  | cons node rest =>
    rw [eachNodeLines, List.mem_append] at listed
    exact listed.elim (worded_nodeLines vertical node line) (worded_eachNodeLines vertical rest line)

end

/-- The keys of an edge are words. -/
theorem worded_edgeLine (image : Image) (edge : ImageEdge) :
    Worded (edgeLine image edge).attributes := by
  apply worded_of_written
  have known : ["id", "tooltip", "href", "label", "ltail", "lhead"] ⊆ writtenKeys := by decide
  refine List.Subset.trans ?_ known
  rw [edgeLine, Line.attributes]
  cases edge.label <;> cases edge.tail <;> cases edge.head <;> simp [optional]

/-- The keys of all lines of an image are words. -/
theorem worded_linesOf (image : Image) (options : ViewOptions) :
    ∀ line ∈ linesOf image options, Worded line.attributes := by
  intro line listed
  simp only [linesOf, levelLines, List.mem_append, List.mem_singleton, List.mem_map] at listed
  rcases listed with ((front | inside | chain) | rfl) | ⟨edge, _, rfl⟩
  · have known : ["compound", "rankdir", "fontname", "fontsize"] ⊆ writtenKeys := by decide
    apply worded_of_written
    refine List.Subset.trans ?_ known
    simp only [preamble, List.mem_append, List.mem_cons, List.not_mem_nil, or_false] at front
    rcases front with compound | rfl | rfl | rfl
    · split at compound
      · obtain rfl := List.mem_singleton.mp compound
        simp [Line.attributes]
      · cases compound
    · simp [Line.attributes]
    · simp [Line.attributes]
    · simp [Line.attributes]
  · exact worded_eachNodeLines options.verticalAlign image.nodes line inside
  · exact worded_chainLines options.verticalAlign image.nodes line chain
  · exact worded_of_written (List.nil_subset _)
  · exact worded_edgeLine image edge

/-- The invisible node of an empty frame is the only statement that it may need. -/
theorem mem_anchorStatements {id : NodeId} {children : List ImageNode} {statement : Statement}
    (listed : statement ∈ (anchorLines id children).flatMap Line.statements) :
    statement = .node (anchorName id) [("shape", "point"), ("style", "invis")] := by
  rw [anchorLines] at listed
  split at listed
  · exact List.mem_singleton.mp listed
  · cases listed

/-- The statements of a chain are invisible edges between neighbouring boxes of the level. -/
theorem exists_neighbours {vertical : Bool} {nodes : List ImageNode} {statement : Statement}
    (listed : statement ∈ (chainLines vertical nodes).flatMap Line.statements) :
    ∃ tail head, (tail, head) ∈ (boxNames nodes).zip (boxNames nodes).tail ∧
      statement = .edge tail head [("style", "invis")] := by
  rw [chainLines] at listed
  split at listed
  · obtain ⟨line, present, here⟩ := List.mem_flatMap.mp listed
    obtain ⟨⟨tail, head⟩, linked, rfl⟩ := List.mem_map.mp present
    exact ⟨tail, head, linked, List.mem_singleton.mp here⟩
  · cases listed

/-- The statements of a chain are invisible edges between boxes of the level. -/
theorem mem_chainStatements {vertical : Bool} {nodes : List ImageNode} {statement : Statement}
    (listed : statement ∈ (chainLines vertical nodes).flatMap Line.statements) :
    ∃ tail ∈ boxNames nodes, ∃ head ∈ boxNames nodes,
      statement = .edge tail head [("style", "invis")] := by
  obtain ⟨tail, head, linked, rfl⟩ := exists_neighbours listed
  obtain ⟨first, second⟩ := List.of_mem_zip linked
  exact ⟨tail, first, head, List.mem_of_mem_tail second, rfl⟩

/-- No line stands for a cluster by itself. -/
theorem block?_of_mem_statements {line : Line} {statement : Statement}
    (listed : statement ∈ line.statements) : statement.block? = none := by
  cases line <;> simp only [Line.statements, List.mem_singleton, List.not_mem_nil] at listed <;>
    subst listed <;> rfl

/-- The statements of lines are flat. -/
theorem flattenAll_lineStatements (lines : List Line) :
    Statement.flattenAll (lines.flatMap Line.statements) = lines.flatMap Line.statements := by
  refine Statement.flattenAll_of_flat (fun statement listed => ?_)
  obtain ⟨line, _, here⟩ := List.mem_flatMap.mp listed
  exact block?_of_mem_statements here

/-- Settings are flat. -/
theorem flattenAll_settingStatements (attributes : List (String × String)) :
    Statement.flattenAll (settingStatements attributes) = settingStatements attributes := by
  refine Statement.flattenAll_of_flat (fun statement listed => ?_)
  obtain ⟨pair, _, rfl⟩ := List.mem_map.mp listed
  rfl

/-- The statements that a node adds of its own, beside those of the nodes inside it. -/
def ownStatements (vertical : Bool) (node : ImageNode) : List Statement :=
  match node with
  | .leaf box | .group box => (boxLine box).statements
  | .cluster id label children =>
    nodeStatements vertical (.cluster id label children) ++
      settingStatements (frameAttributes id label) ++
      (anchorLines id children).flatMap Line.statements ++
      (chainLines vertical children).flatMap Line.statements

mutual

/-- The statements of a node at every depth are those that it and the nodes inside it add. -/
theorem flattenAll_nodeStatements (vertical : Bool) (node : ImageNode) :
    (Statement.flattenAll (nodeStatements vertical node)).Perm
      (node.flatten.flatMap (ownStatements vertical)) := by
  cases node with
  | leaf box => exact List.Perm.refl _
  | group box => exact List.Perm.refl _
  | cluster id label children =>
    have inside := flattenAll_eachNodeStatements vertical children
    rw [ImageNode.flatten, List.flatMap_cons, ownStatements, nodeStatements, Statement.flattenAll,
      Statement.flatten, Statement.flattenAll, Statement.flattenAll_append,
      Statement.flattenAll_append, Statement.flattenAll_append, flattenAll_settingStatements,
      flattenAll_lineStatements, flattenAll_lineStatements, List.append_nil]
    simp only [List.cons_append, List.append_assoc]
    exact ((List.perm_append_comm.trans (inside.append_left _)).append_left _ |>.append_left _).cons _

/-- The statements of a level at every depth are those that its nodes and the nodes inside them
add. -/
theorem flattenAll_eachNodeStatements (vertical : Bool) (nodes : List ImageNode) :
    (Statement.flattenAll (eachNodeStatements vertical nodes)).Perm
      ((ImageNode.flattenAll nodes).flatMap (ownStatements vertical)) := by
  cases nodes with
  | nil => exact List.Perm.refl _
  | cons node rest =>
    rw [eachNodeStatements, Statement.flattenAll_append, ImageNode.flattenAll, List.flatMap_append]
    exact (flattenAll_nodeStatements vertical node).append (flattenAll_eachNodeStatements vertical rest)

end

/-- The statements of the nodes at every depth are those that the nodes add and those of the
outermost chain. -/
theorem flattenAll_levelStatements (vertical : Bool) (nodes : List ImageNode) :
    (Statement.flattenAll (levelStatements vertical nodes)).Perm
      ((ImageNode.flattenAll nodes).flatMap (ownStatements vertical) ++
        (chainLines vertical nodes).flatMap Line.statements) := by
  rw [levelStatements, Statement.flattenAll_append, flattenAll_lineStatements]
  exact (flattenAll_eachNodeStatements vertical nodes).append_right _

/-- The statements of a graph at every depth are those in front, those of the nodes and those of
the edges. -/
theorem flattenAll_digraphOf (image : Image) (options : ViewOptions) :
    Statement.flattenAll (digraphOf image options).body =
      preambleStatements image options ++
        Statement.flattenAll (levelStatements options.verticalAlign image.nodes) ++
        edgeStatements image := by
  rw [digraphOf, Statement.flattenAll_append, Statement.flattenAll_append, preambleStatements,
    edgeStatements, flattenAll_lineStatements, flattenAll_lineStatements]

/-- The drawing of an image is read back as the image's graph. -/
theorem read?_ofImage (image : Image) (options : ViewOptions) :
    Digraph.read? (ofImage image options) = some (digraphOf image options) := by
  have lexed := lexemes?_render options.viewType.word (linesOf image options)
    (worded_linesOf image options)
  rw [lexemes_linesOf] at lexed
  rw [Digraph.read?, ofImage, lexed, Option.bind_some]
  exact Digraph.ofLexemes?_lexemes (digraphOf image options)

end Drawing

end DependencyDiagram
