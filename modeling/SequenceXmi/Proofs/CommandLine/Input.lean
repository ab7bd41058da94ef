import SequenceXmi.Proofs.CommandLine.Runs
import SequenceXmi.Proofs.Xml.RoundTrip

/-! # The diagram file after a run

A run refuses an output path that is the path of its diagram. Paths are compared by their components
there, and paths of different components can lead to one file: a document for `./s.mmd` replaces the
diagram `s.mmd`. `run_content_input` says when the diagram stays, and what is in its place
otherwise. -/

namespace SequenceXmi.CommandLine

/-- A run overwrites its diagram if it writes a document, and the output path leads to where the
path of the diagram does. -/
structure Overwrites (t : FileTree) (args : Arguments) (result : Except Failure Unit) : Prop where
  success : result = .ok ()
  writes : args.dumpModel = false
  same_place : t.locate args.outputPath = t.locate ⟨args.input⟩

section

variable {reader : SettingsReader} {user : Option Path} {random : IdSupply} {args : Arguments}
  {w after : World} {result : Except Failure Unit} {bytes : ByteArray}

/-- A run that does not overwrite its diagram leaves it as it is. -/
theorem content_of_not_overwrites
    (hrun : w.run (run reader user random args) = (result, after))
    (hinput : w.tree.content ⟨args.input⟩ = .ok bytes) (h : ¬ Overwrites w.tree args result) :
    after.tree.content ⟨args.input⟩ = .ok bytes := by
  rcases run_cases reader user random args w with
    ⟨_, reported, shown, hkeeps, -⟩ |
      ⟨hwrites, -, document, output, reported, -, htarget, hdone⟩
  · obtain ⟨rfl, rfl⟩ := Prod.mk.inj (hrun.symm.trans hkeeps)
    exact hinput
  · obtain ⟨rfl, rfl⟩ := Prod.mk.inj (hrun.symm.trans hdone)
    obtain ⟨place, hplace, hnode⟩ := FileTree.content_eq_ok_iff.mp hinput
    have hother : output ≠ place := fun he =>
      h ⟨rfl, hwrites, (FileTree.locate_of_target htarget).trans (he ▸ hplace.symm)⟩
    have hcontent := FileTree.content_put hplace hnode (FileTree.node?_of_target htarget)
      document.text.toUTF8
    rwa [if_neg hother] at hcontent

/-- A run that overwrites its diagram leaves a document in its place. -/
theorem content_of_overwrites
    (hrun : w.run (run reader user random args) = (result, after))
    (hinput : w.tree.content ⟨args.input⟩ = .ok bytes) (h : Overwrites w.tree args result) :
    ∃ document, Makes reader user random args w document ∧
      after.tree.content ⟨args.input⟩ = .ok document.text.toUTF8 := by
  rcases run_cases reader user random args w with
    ⟨_, reported, shown, hkeeps, hshows⟩ |
      ⟨-, -, document, output, reported, hmakes, htarget, hdone⟩
  · obtain ⟨rfl, rfl⟩ := Prod.mk.inj (hrun.symm.trans hkeeps)
    exact absurd (hshows h.success) (by simp [h.writes])
  · obtain ⟨rfl, rfl⟩ := Prod.mk.inj (hrun.symm.trans hdone)
    obtain ⟨place, hplace, hnode⟩ := FileTree.content_eq_ok_iff.mp hinput
    have hsame : output = place :=
      Except.ok.inj ((FileTree.locate_of_target htarget).symm.trans (h.same_place.trans hplace))
    have hcontent := FileTree.content_put hplace hnode (FileTree.node?_of_target htarget)
      document.text.toUTF8
    rw [if_pos hsame] at hcontent
    exact ⟨document, hmakes, hcontent⟩

end

/-- The diagram holds the bytes that it held before the run, unless the run overwrites it; then it
holds the document. -/
theorem run_content_input (reader : SettingsReader) (user : Option Path) (random : IdSupply)
    (args : Arguments) {w after : World} {result : Except Failure Unit} {bytes : ByteArray}
    (hrun : w.run (run reader user random args) = (result, after))
    (hinput : w.tree.content ⟨args.input⟩ = .ok bytes) :
    (¬ Overwrites w.tree args result → after.tree.content ⟨args.input⟩ = .ok bytes) ∧
      (Overwrites w.tree args result → ∃ document, Makes reader user random args w document ∧
        after.tree.content ⟨args.input⟩ = .ok document.text.toUTF8) :=
  ⟨content_of_not_overwrites hrun hinput, content_of_overwrites hrun hinput⟩

/-! ### A diagram of one message -/

/-- The diagram. -/
def ping : String := "participant A as A\nA->>A: ping\n"

/-- A world where the diagram is the only file. -/
def pingWorld : World := .ofTree ⟨[(["s.mmd"], .file ping.toUTF8)], []⟩

/-- The arguments for the diagram, with a path for the document if there is one. -/
def pingArguments (output : Option String) : Arguments :=
  ⟨"s.mmd", output, none, none, "info", false⟩

/-- A reader of configuration files for a world that has none. -/
def pingReader : SettingsReader := fun _ => .ok .standard

/-- A run with these arguments. -/
def runPing (output : Option String) : Except Failure Unit × World :=
  pingWorld.run (run pingReader none .sequential (pingArguments output))

theorem runPing_eq (output : Option String) :
    pingWorld.run (run pingReader none .sequential (pingArguments output)) =
      ((runPing output).1, (runPing output).2) := (Prod.eta _).symm

theorem pingWorld_content : pingWorld.tree.content ⟨"s.mmd"⟩ = .ok ping.toUTF8 := by
  decide +kernel

/-- Without a path for the document, the document has a place of its own. -/
theorem run_content_input_ping :
    (runPing none).1 = .ok () ∧ (runPing none).2.tree.content ⟨"s.mmd"⟩ = .ok ping.toUTF8 := by
  have hother : pingWorld.tree.locate (pingArguments none).outputPath ≠
      pingWorld.tree.locate ⟨"s.mmd"⟩ := by decide +kernel
  have hkept := (run_content_input pingReader none .sequential (pingArguments none)
    (runPing_eq none) pingWorld_content).1 fun hover => hother hover.same_place
  exact ⟨by decide +kernel, hkept⟩

/-- The path `./s.mmd` is another path than `s.mmd` and leads to the same file, so the diagram is
overwritten. -/
theorem run_overwrites_input_ping :
    pingWorld.tree.content ⟨"s.mmd"⟩ = .ok ping.toUTF8 ∧
      (runPing (some "./s.mmd")).1 = .ok () ∧
      (runPing (some "./s.mmd")).2.tree.content ⟨"s.mmd"⟩ ≠ .ok ping.toUTF8 := by
  have hok : (runPing (some "./s.mmd")).1 = .ok () := by decide +kernel
  have hover : Overwrites pingWorld.tree (pingArguments (some "./s.mmd"))
      (runPing (some "./s.mmd")).1 := ⟨hok, rfl, by decide +kernel⟩
  obtain ⟨document, -, hcontent⟩ := content_of_overwrites (runPing_eq _) pingWorld_content hover
  refine ⟨pingWorld_content, hok, fun hkept => ?_⟩
  -- A document starts with its declaration, and the diagram with a participant.
  have htext : document.text = ping :=
    String.toByteArray_inj.mp (Except.ok.inj (hcontent.symm.trans hkept))
  have hfirst := congrArg (·.toList.head?) htext
  simp [Xml.Document.toList_text, Xml.Document.declaration, ping] at hfirst

end SequenceXmi.CommandLine
