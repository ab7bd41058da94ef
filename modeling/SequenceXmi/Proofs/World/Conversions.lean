import SequenceXmi.Proofs.Conversion.Outcome
import SequenceXmi.Proofs.World.Effects

/-! # Conversions from file to file

A conversion in a world is all or nothing (`convertFile_all_or_nothing`). It reads a text, makes the
document, and writes it in one go. Whatever fails on the way, also a refused operation, leaves the
world as it was before; and if nothing fails, the document is the only file that is new
(`World.Wrote`). -/

namespace SequenceXmi

open Xml (Document)
open World (run_bind_ok run_bind_error run_mk run_pure)

namespace World

/-! ## One file is written -/

/-- Between two worlds the file at a path has been written, and nothing else has changed. -/
structure Wrote (output : Path) (bytes : ByteArray) (before after : World) : Prop where
  content : after.tree.content output = .ok bytes
  /-- At any other place there is what was there. -/
  places : ∀ place, before.tree.locate output ≠ .ok place →
    after.tree.node? place = before.tree.node? place
  /-- A path to any other place, or to none, leads to what it led to. -/
  paths : ∀ path, before.tree.locate path ≠ before.tree.locate output →
    (after.tree.at? path).toOption = (before.tree.at? path).toOption
  working : after.tree.working = before.tree.working
  rest : after = { before with tree := after.tree }

/-- A file that is put where a path may lead is written. -/
theorem wrote_put {w : World} {output : Path} {place : Location}
    (htarget : w.tree.target output = .ok place) (bytes : ByteArray) :
    Wrote output bytes w { w with tree := w.tree.put place (.file bytes) } := by
  have hlocate := FileTree.locate_of_target htarget
  have hnode := FileTree.node?_of_target htarget
  have hroot : place ≠ [] := by
    rintro rfl
    exact hnode rfl
  constructor
  · refine FileTree.content_eq_ok_iff.mpr ⟨place, ?_, w.tree.node?_put_self _ hroot⟩
    exact (FileTree.SameDirectories.put_file hnode bytes).locate_ok hlocate
  · intro other hother
    apply w.tree.node?_put_ne
    rintro rfl
    exact hother hlocate
  · intro path hpath
    rw [hlocate] at hpath
    exact FileTree.toOption_at?_put hnode hpath bytes
  · rfl
  · rfl

end World

/-! ## Making and writing -/

namespace Settings

variable {s : Settings}

/-- The document of a text is made and written. -/
def produce (s : Settings) (random : IdSupply) (source : String) (output : Path) (name : String) :
    ExceptT Failure (StateM World) Unit := do
  let document ← ExceptT.mk (pure (s.document random (s.read source).diagram name))
  writeDocument document output

/-- Making and writing a document fails at a file operation; or the text has no document, and it
fails; or the document is written. It changes nothing if it fails. -/
theorem run_produce (s : Settings) (random : IdSupply) (source : String) (output : Path)
    (name : String) (w : World) :
    (∃ fault, w.run (s.produce random source output name) = (.error (.file fault), w)) ∨
      (∃ u, s.document random (s.read source).diagram name = .error (.unresolved u) ∧
        w.run (s.produce random source output name) = (.error (.unresolved u), w)) ∨
      ∃ document place, s.document random (s.read source).diagram name = .ok document ∧
        w.tree.target output = .ok place ∧
        w.run (s.produce random source output name) =
          (.ok (), { w with tree := w.tree.put place (.file document.text.toUTF8) }) := by
  unfold produce
  cases hdocument : s.document random (s.read source).diagram name with
  | error f =>
    obtain ⟨u, rfl⟩ := document_eq_error hdocument
    exact .inr (.inl ⟨u, rfl, run_bind_error (run_mk w _)⟩)
  | ok document =>
    rw [run_bind_ok (run_mk w _)]
    unfold writeDocument
    rcases w.run_writeText output document.text with ⟨fault, hwrite⟩ | ⟨place, htarget, hwrite⟩
    · exact .inl ⟨fault, hwrite⟩
    · exact .inr (.inr ⟨document, place, rfl, htarget, hwrite⟩)

/-- Numbered identifiers do not come from the random supply. -/
theorem produce_of_deterministicIds (hids : s.deterministicIds = true) (random other : IdSupply)
    (source : String) (output : Path) (name : String) :
    s.produce random source output name = s.produce other source output name := by
  unfold produce
  rw [document_of_deterministicIds hids random other]

/-! ## From file to file -/

/-- A conversion that has read its text makes the document and writes it. -/
theorem run_convertFile_of_readable (s : Settings) (random : IdSupply) {input : Path}
    (output : Path) (name : String) {w : World} {source : String}
    (hread : w.run (Host.readText input) = (.ok source, w)) :
    w.run (s.convertFile random input output name) =
      ((w.run (s.produce random source output name)).1.map fun _ => s.read source,
        (w.run (s.produce random source output name)).2) := by
  have hsplit : w.run (s.convertFile random input output name) =
      w.run (s.produce random source output name >>= fun _ => pure (s.read source)) := by
    unfold convertFile produce
    rw [run_bind_ok hread, bind_assoc]
  rw [hsplit]
  rcases hrun : w.run (s.produce random source output name) with ⟨result, after⟩
  cases result with
  | error f => rw [run_bind_error hrun]; rfl
  | ok _ => rw [run_bind_ok hrun, run_pure]; rfl

/-- What a conversion can do. It fails at a file operation; or it reads a text that has no document,
and fails; or it writes the document of the text. It changes nothing if it fails. -/
theorem run_convertFile (s : Settings) (random : IdSupply) (input output : Path) (name : String)
    (w : World) :
    (∃ fault, w.run (s.convertFile random input output name) = (.error (.file fault), w)) ∨
      ∃ source, w.Reads input source ∧
        ((∃ u, s.document random (s.read source).diagram name = .error (.unresolved u) ∧
            w.run (s.convertFile random input output name) = (.error (.unresolved u), w)) ∨
          ∃ document place, s.document random (s.read source).diagram name = .ok document ∧
            w.tree.target output = .ok place ∧
            w.run (s.convertFile random input output name) = (.ok (s.read source),
              { w with tree := w.tree.put place (.file document.text.toUTF8) })) := by
  rcases w.run_readText input with ⟨fault, hread⟩ | ⟨source, hreads, hread⟩
  · exact .inl ⟨fault, run_bind_error hread⟩
  have hrun := run_convertFile_of_readable s random output name hread
  rcases run_produce s random source output name w with
    ⟨fault, h⟩ | ⟨u, hdocument, h⟩ | ⟨document, place, hdocument, htarget, h⟩
  all_goals rw [h] at hrun
  · exact .inl ⟨fault, hrun⟩
  · exact .inr ⟨source, hreads, .inl ⟨u, hdocument, hrun⟩⟩
  · exact .inr ⟨source, hreads, .inr ⟨document, place, hdocument, htarget, hrun⟩⟩

/-- A conversion with numbered identifiers writes the document of the text that it reads, and
nothing else; or it fails, and then all is as it was before. It fails for a missing participant only
if a text can be read and has no document. -/
theorem convertFile_all_or_nothing (s : Settings) (hids : s.deterministicIds = true)
    (random other : IdSupply) (input output : Path) (name : String) {w after : World}
    {result : Except Failure Mermaid.Reading}
    (hrun : w.run (s.convertFile random input output name) = (result, after)) :
    ((∃ source text, w.Reads input source ∧ s.convert other source name = .ok text ∧
        result = .ok (s.read source) ∧ w.Wrote output text.toUTF8 after) ∨
      ∃ f, result = .error f ∧ after = w) ∧
    ∀ u, result = .error (.unresolved u) →
      ∃ source, w.Reads input source ∧
        s.document other (s.read source).diagram name = .error (.unresolved u) := by
  rcases run_convertFile s random input output name w with
    ⟨fault, h⟩ | ⟨source, hreads, ⟨u, hdocument, h⟩ | ⟨document, place, hdocument, htarget, h⟩⟩
  all_goals obtain ⟨rfl, rfl⟩ := Prod.mk.inj (hrun.symm.trans h)
  · exact ⟨.inr ⟨_, rfl, rfl⟩, nofun⟩
  · rw [document_of_deterministicIds hids random other] at hdocument
    refine ⟨.inr ⟨_, rfl, rfl⟩, ?_⟩
    intro u' hu'
    obtain rfl : u = u' := Failure.unresolved.inj (Except.error.inj hu')
    exact ⟨source, hreads, hdocument⟩
  · rw [document_of_deterministicIds hids random other] at hdocument
    have hconvert : s.convert other source name = .ok document.text := by
      unfold convert
      rw [hdocument]
      rfl
    exact ⟨.inl ⟨source, document.text, hreads, hconvert, rfl, World.wrote_put htarget _⟩, nofun⟩

/-! ### A diagram of one message -/

/-- A world with a diagram, and with another file in the place of its document. -/
def greetingWorld : World :=
  .ofTree ⟨[(["d", "a.mmd"], .file "participant A\nA->>A: hi\n".toUTF8), (["d"], .directory),
    (["d", "a.xmi"], .file "old".toUTF8)], ["d"]⟩

/-- The diagram is converted in this world. -/
def runGreeting : Except Failure Mermaid.Reading × World :=
  greetingWorld.run (numbered.convertFile .sequential ⟨"a.mmd"⟩ ⟨"../d/a.xmi"⟩ "Greeting")

/-- The document takes the place of the other file. -/
theorem convertFile_greeting :
    numbered.deterministicIds = true ∧
      ∃ source text, greetingWorld.Reads ⟨"a.mmd"⟩ source ∧
        numbered.convert .sequential source "Greeting" = .ok text ∧
        runGreeting.1 = .ok (numbered.read source) ∧
        greetingWorld.Wrote ⟨"../d/a.xmi"⟩ text.toUTF8 runGreeting.2 := by
  have hrun : greetingWorld.run
      (numbered.convertFile .sequential ⟨"a.mmd"⟩ ⟨"../d/a.xmi"⟩ "Greeting") =
        (runGreeting.1, runGreeting.2) := (Prod.eta _).symm
  have hok : runGreeting.1.isOk = true := by decide +kernel
  rcases (convertFile_all_or_nothing numbered rfl .sequential .sequential ⟨"a.mmd"⟩
    ⟨"../d/a.xmi"⟩ "Greeting" hrun).1 with hwrote | ⟨f, hf, -⟩
  · exact ⟨rfl, hwrote⟩
  · rw [hf] at hok
    cases hok

end Settings

end SequenceXmi
