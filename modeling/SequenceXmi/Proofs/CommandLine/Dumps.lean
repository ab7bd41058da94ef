import SequenceXmi.Proofs.CommandLine.Runs
import SequenceXmi.Proofs.Json.Diagrams

/-! # Shown models

A run that is to show the model does this and nothing else, whatever the diagram and the other
arguments are. From what it shows the diagram can be read again, so that no two diagrams look alike.

Main result: `dumpModel_lossless`. -/

namespace SequenceXmi.CommandLine

open World (run_lift)

/-! ## One text for each diagram -/

/-- The diagram is read back from its text in either layout. -/
structure ReadBack (d : Diagram) : Prop where
  pretty : Json.read? d.toJson.pretty = some d.toJson
  compact : Json.read? d.toJson.compact = some d.toJson
  diagram : Diagram.ofJson? d.toJson = some d

theorem readBack (d : Diagram) : ReadBack d :=
  ⟨Json.read?_pretty d.toJson, Json.read?_compact d.toJson, Diagram.ofJson?_toJson d⟩

/-- A text holds one diagram at most. -/
theorem ReadBack.unique {d e : Diagram} (hd : ReadBack d) (he : ReadBack e)
    (h : d.toJson.pretty = e.toJson.pretty ∨ d.toJson.compact = e.toJson.compact) : d = e := by
  have hjson : d.toJson = e.toJson := by
    rcases h with h | h
    · have hpretty := hd.pretty
      rw [h, he.pretty] at hpretty
      exact (Option.some.inj hpretty).symm
    · have hcompact := hd.compact
      rw [h, he.compact] at hcompact
      exact (Option.some.inj hcompact).symm
  have hdiagram := hd.diagram
  rw [hjson, he.diagram] at hdiagram
  exact (Option.some.inj hdiagram).symm

/-! ## The command -/

/-- A run that is to show the model. -/
theorem run_of_dumpModel {reader : SettingsReader} {user : Option Path} (random : IdSupply)
    {args : Arguments} {w : World} {settings : Settings} {source : String}
    (hdump : args.dumpModel = true)
    (hload : (w.run (loadSettings reader user args.config)).1 = .ok settings)
    (hreads : w.Reads ⟨args.input⟩ source) :
    w.run (run reader user random args) = (.ok (),
      { w with
        reported := w.reported ++ (settings.read source).warnings
        shown := w.shown ++ ((settings.read source).diagram.toJson.pretty ++ "\n") }) := by
  rw [run_of_readable random hload hreads.run_readText, afterReading, if_pos hdump]
  exact run_lift rfl

/-- Every diagram is read back from its text, so that different diagrams have different texts. A run
that is to show the model succeeds if it has settings and a text to read: it shows the diagram of
the text and reports the warnings about it, and nothing else changes. -/
theorem dumpModel_lossless :
    (∀ d, ReadBack d) ∧
    (∀ d e : Diagram, d ≠ e →
      d.toJson.pretty ≠ e.toJson.pretty ∧ d.toJson.compact ≠ e.toJson.compact) ∧
    ∀ (reader : SettingsReader) (user : Option Path) (random : IdSupply) (args : Arguments)
      (w : World) (settings : Settings) (source : String), args.dumpModel = true →
      (w.run (loadSettings reader user args.config)).1 = .ok settings →
      w.Reads ⟨args.input⟩ source →
      w.run (run reader user random args) = (.ok (),
        { w with
          reported := w.reported ++ (settings.read source).warnings
          shown := w.shown ++ ((settings.read source).diagram.toJson.pretty ++ "\n") }) := by
  refine ⟨readBack, ?_, ?_⟩
  · intro d e hne
    constructor
    · intro h
      exact hne ((readBack d).unique (readBack e) (.inl h))
    · intro h
      exact hne ((readBack d).unique (readBack e) (.inr h))
  · intro reader user random args w settings source hdump hload hreads
    exact run_of_dumpModel random hdump hload hreads

/-! ### A diagram without participants -/

/-- A message with signs of JSON in its text, between participants that are not declared. -/
def undeclared : String := "A->>B: \"\\\x01é\\n\""

/-- A world where the diagram is the only file. -/
def undeclaredWorld : World := .ofTree ⟨[(["s.mmd"], .file undeclared.toUTF8)], []⟩

/-- The arguments to show its model, with the diagram's own path for a document. -/
def undeclaredArguments : Arguments := ⟨"s.mmd", some "s.mmd", none, none, "info", true⟩

/-- The model is shown, though there would be no document and no place for it. -/
theorem dumpModel_lossless_undeclared :
    undeclaredArguments.dumpModel = true ∧ undeclaredWorld.Reads ⟨"s.mmd"⟩ undeclared ∧
      undeclaredWorld.run (run (fun _ => .ok .standard) none .sequential undeclaredArguments) =
        (.ok (), { undeclaredWorld with
          reported := undeclaredWorld.reported ++ (Settings.standard.read undeclared).warnings
          shown := undeclaredWorld.shown ++
            ((Settings.standard.read undeclared).diagram.toJson.pretty ++ "\n") }) ∧
      Json.read? (Settings.standard.read undeclared).diagram.toJson.pretty =
        some (Settings.standard.read undeclared).diagram.toJson := by
  obtain ⟨hback, -, hrun⟩ := dumpModel_lossless
  have hload : (undeclaredWorld.run (loadSettings (fun _ => .ok .standard) none
      undeclaredArguments.config)).1 = .ok Settings.standard := by
    decide +kernel
  have hreads : undeclaredWorld.Reads ⟨"s.mmd"⟩ undeclared :=
    ⟨rfl, undeclared.toUTF8, by decide +kernel, by decide +kernel⟩
  have hshown := hrun (fun _ => .ok .standard) none .sequential undeclaredArguments undeclaredWorld
    .standard undeclared rfl hload hreads
  exact ⟨rfl, hreads, hshown, (hback _).pretty⟩

end SequenceXmi.CommandLine
