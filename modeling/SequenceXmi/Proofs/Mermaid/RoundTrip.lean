import SequenceXmi.Proofs.Text.Lines
import SequenceXmi.Proofs.Mermaid.Printing
import SequenceXmi.Proofs.Mermaid.Routing

/-! # Diagrams as text

`render` writes a diagram as text: first the lifelines, then the messages outside every fragment,
then the fragments one after another, each with its own `end`.

Main result: `read_render`. Reading the text of a well-formed diagram gives the diagram back,
without any warning and with either way of nesting, since no fragment is open where the next one
opens. -/

namespace SequenceXmi.Mermaid

open Text

/-! ## Writing a diagram -/

/-- The statement that declares a lifeline. -/
def declaration (l : Lifeline) : Statement := .participant l.aliasName (some l.displayName)

/-- The text of a note without the words in front of it. -/
def noteText (m : Message) : String :=
  String.ofList (m.text.toList.drop Message.notePreface.toList.length)

/-- The statement that sends a message. -/
def sending (m : Message) : Statement :=
  match m.kind with
  | .synchronous => .message m.sender m.receiver m.text
  | .note => .note m.sender (noteText m)

/-- The statements from the opening of a fragment to its end. -/
def bracketed (f : Fragment) : List Statement :=
  .opening f.operator f.guard :: (f.messages.map sending ++ [.closing])

/-- The statements of a diagram. -/
def statementsOf (d : Diagram) : List Statement :=
  d.lifelines.map declaration ++ d.topLevel.map sending ++ d.fragments.flatMap bracketed

/-- The text of a diagram, each statement on a line of its own. -/
def render (d : Diagram) : String := written ((statementsOf d).map (·.print))

/-! ## Diagrams that can be written -/

/-- Sender and receiver are words, and the text fits into a line; a note is sent from its target to
itself, and its text has no arrow. -/
def MessageFits (m : Message) : Prop :=
  match m.kind with
  | .synchronous => IsName m.sender ∧ IsName m.receiver ∧ IsLineText m.text
  | .note => IsName m.sender ∧ m.receiver = m.sender ∧
      ∃ t, m.text = Message.notePreface ++ t ∧ IsLineText t ∧ NoArrow t

/-- Every part of the diagram can be written as a line. -/
structure WellFormed (d : Diagram) : Prop where
  lifelines : ∀ l ∈ d.lifelines, IsName l.aliasName ∧ IsShownName l.displayName
  topLevel : ∀ m ∈ d.topLevel, MessageFits m
  fragments : ∀ f ∈ d.fragments, IsGuard f.guard ∧ ∀ m ∈ f.messages, MessageFits m

/-- What a note says is what comes after the words in front of it. -/
theorem noteText_of_text {m : Message} {t : String} (h : m.text = Message.notePreface ++ t) :
    noteText m = t := by
  rw [noteText, h, String.toList_append, List.drop_left, String.ofList_toList]

theorem printable_sending {m : Message} (h : MessageFits m) : (sending m).Printable := by
  unfold MessageFits at h
  unfold sending
  cases hkind : m.kind with
  | synchronous =>
    rw [hkind] at h
    exact h
  | note =>
    rw [hkind] at h
    obtain ⟨hsender, -, t, htext, ht, harrow⟩ := h
    show IsName m.sender ∧ IsLineText (noteText m) ∧ NoArrow (noteText m)
    rw [noteText_of_text htext]
    exact ⟨hsender, ht, harrow⟩

/-- All statements of a well-formed diagram can be written as lines. -/
theorem WellFormed.printable {d : Diagram} (h : WellFormed d) :
    ∀ st ∈ statementsOf d, st.Printable := by
  intro st hst
  unfold statementsOf at hst
  rcases List.mem_append.mp hst with hfront | hfragment
  · rcases List.mem_append.mp hfront with hlifeline | hmessage
    · obtain ⟨l, hl, rfl⟩ := List.mem_map.mp hlifeline
      obtain ⟨hname, hshown⟩ := h.lifelines l hl
      refine ⟨hname, ?_⟩
      rintro n ⟨⟩
      exact hshown
    · obtain ⟨m, hm, rfl⟩ := List.mem_map.mp hmessage
      exact printable_sending (h.topLevel m hm)
  · obtain ⟨f, hf, hmem⟩ := List.mem_flatMap.mp hfragment
    obtain ⟨hguard, hmessages⟩ := h.fragments f hf
    rcases List.mem_cons.mp hmem with rfl | hinner
    · exact hguard
    · rcases List.mem_append.mp hinner with hmessage | hclosing
      · obtain ⟨m, hm, rfl⟩ := List.mem_map.mp hmessage
        exact printable_sending (hmessages m hm)
      · obtain rfl := List.mem_singleton.mp hclosing
        exact trivial

/-! ## Lines that hold statements -/

/-- The lines hold these statements, one each. -/
def Holds (ls : List Line) (sts : List Statement) : Prop := ls.map statement? = sts.map some

theorem Holds.nil {ls : List Line} (h : Holds ls []) : ls = [] := List.map_eq_nil_iff.mp h

theorem Holds.cons {ls : List Line} {st : Statement} {sts : List Statement}
    (h : Holds ls (st :: sts)) :
    ∃ line rest, ls = line :: rest ∧ statement? line = some st ∧ Holds rest sts := by
  obtain ⟨line, rest, hls, hline, hrest⟩ := List.map_eq_cons_iff.mp h
  exact ⟨line, rest, hls, hline, hrest⟩

theorem Holds.append {ls : List Line} {sts sts' : List Statement} (h : Holds ls (sts ++ sts')) :
    ∃ front back, ls = front ++ back ∧ Holds front sts ∧ Holds back sts' := by
  unfold Holds at h
  rw [List.map_append] at h
  exact List.map_eq_append_iff.mp h

/-- A line with a printed text holds the statement that was printed. -/
theorem statement?_of_text {line : Line} {st : Statement} (h : st.Printable)
    (htext : line.text = trim st.print.toList) : statement? line = some st := by
  obtain ⟨hline, w, rest, hw, hword⟩ := readsAs_print h
  rw [← htext] at hline hword
  unfold statement?
  rw [not_isIgnorable_of_word hw hword, hline]
  rfl

/-- Lines with printed texts hold the statements that were printed. -/
theorem holds_of_map_text {ls : List Line} {sts : List Statement} (h : ∀ st ∈ sts, st.Printable)
    (htexts : ls.map (·.text) = sts.map fun st => trim st.print.toList) : Holds ls sts := by
  induction sts generalizing ls with
  | nil =>
    rw [List.map_eq_nil_iff.mp htexts]
    rfl
  | cons st sts ih =>
    obtain ⟨line, rest, rfl, hline, hrest⟩ := List.map_eq_cons_iff.mp htexts
    have hst := statement?_of_text (h st List.mem_cons_self) hline
    have hsts := ih (fun x hx => h x (List.mem_cons_of_mem st hx)) hrest
    unfold Holds
    rw [List.map_cons, List.map_cons, hst, hsts]

/-- The lines of the text hold the statements of the diagram. -/
theorem holds_lines_render {d : Diagram} (h : WellFormed d) :
    Holds (lines (render d)) (statementsOf d) := by
  have htexts : (lines (render d)).map (·.text) =
      (statementsOf d).map fun st => trim st.print.toList := by
    unfold render
    rw [map_text_lines_written, List.map_map]
    · rfl
    · intro l hl
      obtain ⟨st, hst, rfl⟩ := List.mem_map.mp hl
      exact newline_not_mem_print (h.printable st hst)
  exact holds_of_map_text h.printable htexts

/-! ## Reading them -/

section Run

variable {nesting : Nesting} {p : Progress}

theorem step_of_statement? {line : Line} {st : Statement} (h : statement? line = some st) :
    p.step nesting line = p.apply nesting line.span st := by
  obtain ⟨hline, hst⟩ := statement?_eq_some.mp h
  unfold Progress.step
  rw [hline, hst]
  rfl

/-- Lines that hold statements of one sort act one after another. -/
theorem foldl_step_of_holds {α : Type} {say : α → Statement} {act : Progress → α → Progress}
    {xs : List α} {ls : List Line} (hholds : Holds ls (xs.map say))
    (hact : ∀ x ∈ xs, ∀ q span, Progress.apply nesting q span (say x) = act q x) :
    ls.foldl (Progress.step nesting) p = xs.foldl act p := by
  induction xs generalizing ls p with
  | nil =>
    obtain rfl := hholds.nil
    rfl
  | cons x xs ih =>
    obtain ⟨line, rest, rfl, hline, hrest⟩ := hholds.cons
    have hx := hact x List.mem_cons_self p line.span
    rw [List.foldl_cons, List.foldl_cons, step_of_statement? hline, hx]
    apply ih hrest
    intro y hy
    exact hact y (List.mem_cons_of_mem x hy)

variable (ls : List Lifeline) (top : List Message) (fs : List Fragment) (ws : List Warning)

theorem foldl_declare (ds : List Lifeline) (os : List OpenFragment) :
    ds.foldl Progress.declare ⟨ls, top, fs, os, ws⟩ = ⟨ls ++ ds, top, fs, os, ws⟩ := by
  induction ds generalizing ls with
  | nil => rw [List.append_nil]; rfl
  | cons l ds ih =>
    show ds.foldl Progress.declare ⟨ls ++ [l], top, fs, os, ws⟩ = _
    rw [ih, List.append_assoc]
    rfl

/-- Outside every fragment messages go to the top level. -/
theorem foldl_send_outside (ms : List Message) :
    ms.foldl Progress.send ⟨ls, top, fs, [], ws⟩ = ⟨ls, top ++ ms, fs, [], ws⟩ := by
  induction ms generalizing top with
  | nil => rw [List.append_nil]; rfl
  | cons m ms ih =>
    show ms.foldl Progress.send ⟨ls, top ++ [m], fs, [], ws⟩ = _
    rw [ih, List.append_assoc]
    rfl

/-- After an opening they go to the new fragment. -/
theorem foldl_send_inside (f : Fragment) (span : Span) (ms : List Message) :
    ms.foldl Progress.send ⟨ls, top, fs ++ [f], [⟨fs.length, span⟩], ws⟩ =
      ⟨ls, top, fs ++ [{ f with messages := f.messages ++ ms }], [⟨fs.length, span⟩], ws⟩ := by
  induction ms generalizing f with
  | nil => rw [List.append_nil]; rfl
  | cons m ms ih =>
    -- The open fragment is the last of the list.
    have hmodify : (fs ++ [f]).modify fs.length (·.push m) = fs ++ [f.push m] :=
      modify_append_length (·.push m) fs f []
    show ms.foldl Progress.send
      ⟨ls, top, (fs ++ [f]).modify fs.length (·.push m), [⟨fs.length, span⟩], ws⟩ = _
    rw [hmodify, ih, Fragment.push, List.append_assoc]
    rfl

/-- A message that fits is sent as it is. -/
theorem apply_sending {m : Message} (h : MessageFits m) (q : Progress) (span : Span) :
    q.apply nesting span (sending m) = q.send m := by
  obtain ⟨sender, receiver, text, kind⟩ := m
  cases kind with
  | synchronous => rfl
  | note =>
    obtain ⟨-, hreceiver, t, htext, -, -⟩ := h
    have hnote := noteText_of_text htext
    obtain rfl : receiver = sender := hreceiver
    obtain rfl : text = Message.notePreface ++ t := htext
    show q.send (.note receiver (noteText _)) = _
    rw [hnote, Message.note]

/-- A bracketed fragment is added as a whole, and none is open after it. -/
theorem foldl_step_bracketed {f : Fragment} (hfits : ∀ m ∈ f.messages, MessageFits m)
    {lines : List Line} (hholds : Holds lines (bracketed f)) :
    lines.foldl (Progress.step nesting) ⟨ls, top, fs, [], ws⟩ =
      ⟨ls, top, fs ++ [f], [], ws⟩ := by
  obtain ⟨opening, rest, rfl, hopening, hrest⟩ := hholds.cons
  obtain ⟨inner, last, rfl, hinner, hlast⟩ := hrest.append
  obtain ⟨closing, none, rfl, hclosing, hnone⟩ := hlast.cons
  obtain rfl := hnone.nil
  have hopen : Progress.step nesting ⟨ls, top, fs, [], ws⟩ opening =
      ⟨ls, top, fs ++ [.empty f.operator f.guard], [⟨fs.length, opening.span⟩], ws⟩ := by
    rw [step_of_statement? hopening]
    -- No fragment is open before, so that flat nesting closes none.
    cases nesting <;> rfl
  have hact : ∀ m ∈ f.messages, ∀ q span, Progress.apply nesting q span (sending m) = q.send m :=
    fun m hm q span => apply_sending (hfits m hm) q span
  rw [List.foldl_cons, hopen, List.foldl_append, foldl_step_of_holds hinner hact, foldl_send_inside,
    List.foldl_cons, step_of_statement? hclosing]
  rfl

theorem foldl_step_fragments {gs : List Fragment}
    (hfits : ∀ f ∈ gs, ∀ m ∈ f.messages, MessageFits m) {lines : List Line}
    (hholds : Holds lines (gs.flatMap bracketed)) :
    lines.foldl (Progress.step nesting) ⟨ls, top, fs, [], ws⟩ =
      ⟨ls, top, fs ++ gs, [], ws⟩ := by
  induction gs generalizing lines fs with
  | nil =>
    obtain rfl := hholds.nil
    rw [List.append_nil]
    rfl
  | cons g gs ih =>
    obtain ⟨front, back, rfl, hfront, hback⟩ := hholds.append
    have hg := hfits g List.mem_cons_self
    have hgs := fun f hf => hfits f (List.mem_cons_of_mem g hf)
    rw [List.foldl_append, foldl_step_bracketed ls top fs ws hg hfront, ih _ hgs hback,
      List.append_assoc]
    rfl

end Run

/-- The text of a well-formed diagram is read as this diagram, and nothing in it is warned about. -/
theorem read_render (nesting : Nesting) (d : Diagram) (h : WellFormed d) :
    read nesting (render d) = ⟨d, []⟩ := by
  obtain ⟨front, fragments, hsplit, hfront, hfragments⟩ := (holds_lines_render h).append
  obtain ⟨declarations, messages, rfl, hdeclarations, hmessages⟩ := hfront.append
  have hdeclaration : ∀ l ∈ d.lifelines, ∀ q span,
      Progress.apply nesting q span (declaration l) = q.declare l := fun _ _ _ _ => rfl
  have hmessage : ∀ m ∈ d.topLevel, ∀ q span,
      Progress.apply nesting q span (sending m) = q.send m :=
    fun m hm q span => apply_sending (h.topLevel m hm) q span
  have hfits : ∀ f ∈ d.fragments, ∀ m ∈ f.messages, MessageFits m :=
    fun f hf => (h.fragments f hf).2
  have hrun : (lines (render d)).foldl (Progress.step nesting) .start =
      ⟨d.lifelines, d.topLevel, d.fragments, [], []⟩ := by
    unfold Progress.start
    rw [hsplit, List.foldl_append, List.foldl_append,
      foldl_step_of_holds hdeclarations hdeclaration, foldl_declare,
      foldl_step_of_holds hmessages hmessage, foldl_send_outside,
      foldl_step_fragments _ _ _ _ hfits hfragments]
    rfl
  unfold read
  rw [hrun]
  rfl

/-- A diagram whose names, texts and guards look like keywords and arrows. -/
def lookalikes : Diagram :=
  ⟨[⟨"end", "as ->> Note"⟩, ⟨"participant", "%% ä\rß"⟩],
    [.synchronous "end" "participant" "alt ->> loop: x", .note "été_2" "over: --> x"],
    [⟨.loop, "", []⟩, ⟨.alt, "end > 0", [.synchronous "loop" "Note" ": 1"]⟩]⟩

theorem read_render_lookalikes :
    WellFormed lookalikes ∧ read .flat (render lookalikes) = ⟨lookalikes, []⟩ := by
  have hformed : WellFormed lookalikes := by
    refine ⟨by decide +kernel, ?_, ?_⟩
    · intro m hm
      rcases List.mem_pair.mp hm with rfl | rfl
      · exact ⟨by decide +kernel, by decide +kernel, by decide +kernel⟩
      · exact ⟨by decide +kernel, rfl, "over: --> x", by decide, by decide +kernel,
          by decide +kernel⟩
    · intro f hf
      rcases List.mem_pair.mp hf with rfl | rfl
      · exact ⟨by decide +kernel, by simp⟩
      · refine ⟨by decide +kernel, ?_⟩
        intro m hm
        obtain rfl := List.mem_singleton.mp hm
        exact ⟨by decide +kernel, by decide +kernel, by decide +kernel⟩
  exact ⟨hformed, read_render .flat lookalikes hformed⟩

end SequenceXmi.Mermaid
