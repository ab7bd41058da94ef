import SequenceXmi.Proofs.World.Trees

/-! # What conversions do to a world

A conversion that runs in a world gives a result and leaves a world (`World.run`). Reading keeps the
world as it is (`Keeps`). Writing a file does so too if it fails, and whichever operation fails;
otherwise the file at its place is the only change (`run_writeText`). -/

namespace SequenceXmi.World

variable {α β : Type} {act : ExceptT Failure (StateM World) α}
  {next : α → ExceptT Failure (StateM World) β}

/-! ## Runs -/

-- So that the result of a run in a given world can be checked by evaluation.
deriving instance DecidableEq for Except

/-- A conversion in a world: its result, and the world after it. -/
def run (w : World) (act : ExceptT Failure (StateM World) α) : Except Failure α × World :=
  act.run.run w

@[simp] theorem run_pure (w : World) (a : α) : w.run (pure a) = (.ok a, w) := rfl

@[simp] theorem run_throw (w : World) (f : Failure) :
    w.run (throw f : ExceptT Failure _ α) = (.error f, w) := rfl

theorem run_mk (w : World) (result : Except Failure α) :
    w.run (ExceptT.mk (pure result)) = (result, w) := rfl

theorem run_lift {w after : World} {act : StateM World α} {a : α} (h : act.run w = (a, after)) :
    w.run (ExceptT.lift act) = (.ok a, after) :=
  congrArg (fun p => (Except.ok p.1, p.2)) h

theorem run_attempt_ok {w after : World} {act : StateM World (Except FileFault α)} {a : α}
    (h : act.run w = (.ok a, after)) : w.run (Host.attempt act) = (.ok a, after) :=
  congrArg (fun p => (p.1.mapError Failure.file, p.2)) h

theorem run_attempt_error {w after : World} {act : StateM World (Except FileFault α)}
    {fault : FileFault} (h : act.run w = (.error fault, after)) :
    w.run (Host.attempt act) = (.error (.file fault), after) :=
  congrArg (fun p => (p.1.mapError Failure.file, p.2)) h

/-- What comes after a result goes on with it, in the world that is left. -/
theorem run_bind_ok {w after : World} {a : α} (h : w.run act = (.ok a, after)) :
    w.run (act >>= next) = after.run (next a) := by
  unfold run at h ⊢
  simp only [ExceptT.run_bind, StateT.run_bind, h]
  rfl

/-- Nothing comes after a failure. -/
theorem run_bind_error {w after : World} {f : Failure} (h : w.run act = (.error f, after)) :
    w.run (act >>= next) = (.error f, after) := by
  unfold run at h ⊢
  simp only [ExceptT.run_bind, StateT.run_bind, h]
  rfl

/-! ## Conversions that keep the world -/

/-- A conversion leaves every world as it is. -/
def Keeps (act : ExceptT Failure (StateM World) α) : Prop := ∀ w : World, (w.run act).2 = w

namespace Keeps

theorem pure (a : α) : Keeps (Pure.pure a) := fun _ => rfl

theorem throw (f : Failure) : Keeps (MonadExcept.throw f : ExceptT Failure _ α) := fun _ => rfl

theorem run_eq (h : Keeps act) (w : World) :
    w.run act = ((w.run act).1, w) := Prod.ext rfl (h w)

theorem bind (h : Keeps act) (hnext : ∀ a, Keeps (next a)) : Keeps (act >>= next) := fun w => by
  cases hact : (w.run act).1 with
  | error f => rw [run_bind_error (hact ▸ h.run_eq w)]
  | ok a => rw [run_bind_ok (hact ▸ h.run_eq w)]; exact hnext a w

theorem isThere (path : Path) :
    Keeps (ExceptT.lift (Host.isThere path : StateM World Bool)) := fun _ => rfl

end Keeps

/-! ## File operations -/

/-- An operation fails and changes nothing, or is not refused and does what it should. -/
theorem operate_cases (w : World) (operation : Operation)
    (act : FileTree → Except FileFault (α × FileTree)) :
    (∃ fault, (operate operation act).run w = (.error fault, w)) ∨
      w.refuses operation = none ∧ ∃ a tree, act w.tree = .ok (a, tree) ∧
        (operate operation act).run w = (.ok a, { w with tree }) := by
  cases hrefuses : w.refuses operation with
  | some fault => exact .inl ⟨fault, by simp [operate, StateT.run, hrefuses]⟩
  | none =>
    cases hact : act w.tree with
    | error fault => exact .inl ⟨fault, by simp [operate, StateT.run, hrefuses, hact]⟩
    | ok result =>
      refine .inr ⟨rfl, result.1, result.2, rfl, ?_⟩
      simp [operate, StateT.run, hrefuses, hact]

/-! ## Reading -/

/-- A text can be read at a path: there is a file that holds it, and reading is not refused. -/
structure Reads (w : World) (path : Path) (text : String) : Prop where
  allowed : w.refuses (.read path) = none
  content : ∃ bytes, w.tree.content path = .ok bytes ∧ String.fromUTF8? bytes = some text

/-- Reading the bytes of a file fails, or gives them; either way it changes nothing. -/
theorem run_readBytes (w : World) (path : Path) :
    (∃ fault, w.run (Host.attempt (Host.readBytes path)) = (.error (.file fault), w)) ∨
      w.refuses (.read path) = none ∧ ∃ bytes, w.tree.content path = .ok bytes ∧
        w.run (Host.attempt (Host.readBytes path)) = (.ok bytes, w) := by
  rcases w.operate_cases (.read path) fun t => (t.content path).map (·, t) with
    ⟨fault, h⟩ | ⟨hallowed, bytes, tree, hact, h⟩
  · exact .inl ⟨fault, run_attempt_error h⟩
  · cases hcontent : w.tree.content path with
    | error fault => simp [hcontent, Except.map] at hact
    | ok content =>
      obtain ⟨rfl, rfl⟩ : content = bytes ∧ w.tree = tree := by
        simpa [hcontent, Except.map] using hact
      exact .inr ⟨hallowed, content, rfl, run_attempt_ok h⟩

/-- Reading a text fails, or gives what the bytes of the file encode; either way it changes
nothing. -/
theorem run_readText (w : World) (path : Path) :
    (∃ fault, w.run (Host.readText path) = (.error (.file fault), w)) ∨
      ∃ text, w.Reads path text ∧ w.run (Host.readText path) = (.ok text, w) := by
  unfold Host.readText
  rcases w.run_readBytes path with ⟨fault, h⟩ | ⟨hallowed, bytes, hcontent, h⟩
  · exact .inl ⟨fault, run_bind_error h⟩
  · rw [run_bind_ok h]
    cases htext : String.fromUTF8? bytes with
    | none => exact .inl ⟨_, run_throw w _⟩
    | some text => exact .inr ⟨text, ⟨hallowed, bytes, hcontent, htext⟩, run_pure w text⟩

/-- A text that can be read is what reading gives. -/
theorem Reads.run_readText {w : World} {path : Path} {text : String} (h : w.Reads path text) :
    w.run (Host.readText path) = (.ok text, w) := by
  obtain ⟨hallowed, bytes, hcontent, htext⟩ := h
  have hbytes : (Host.readBytes path : StateM World (Except FileFault ByteArray)).run w =
      (.ok bytes, w) := by
    show operate (.read path) (fun t => (t.content path).map (·, t)) w = (.ok bytes, w)
    unfold operate
    rw [hallowed]
    dsimp only
    rw [hcontent]
    rfl
  unfold Host.readText
  rw [run_bind_ok (run_attempt_ok hbytes), htext]
  rfl

/-- Where reading fails, there is no text to be read. -/
theorem not_reads_of_run_readText {w : World} {path : Path} {f : Failure}
    (h : w.run (Host.readText path) = (.error f, w)) (text : String) : ¬ w.Reads path text := by
  intro hreads
  rw [hreads.run_readText] at h
  cases h

theorem Keeps.readBytes (path : Path) : Keeps (Host.attempt (Host.readBytes path)) := fun w => by
  rcases w.run_readBytes path with ⟨fault, h⟩ | ⟨-, bytes, -, h⟩ <;> rw [h]

theorem Keeps.readText (path : Path) : Keeps (Host.readText path) := fun w => by
  rcases w.run_readText path with ⟨fault, h⟩ | ⟨text, -, h⟩ <;> rw [h]

/-! ## Writing -/

/-- A staged file is empty and has an unused place of its own. -/
theorem stage_eq_ok {t u : FileTree} {directory : Path} {file : Location}
    (h : t.stage directory = .ok (file, u)) :
    t.Unused file ∧ file ≠ [] ∧ u = t.put file (.file .empty) := by
  unfold FileTree.stage at h
  cases hplace : t.locate directory with
  | error fault => simp [hplace, bind, Except.bind] at h
  | ok place =>
    simp only [hplace, bind, Except.bind] at h
    split at h
    · cases h
    · cases h
    · cases h
      exact ⟨t.unused_unusedName place, by simp, rfl⟩

/-- A file that was staged and filled moves to its place as if it had never been anywhere else. -/
theorem move_put_eq_ok {t u : FileTree} {file : Location} {path : Path} {bytes : ByteArray}
    (hunused : t.Unused file) (hroot : file ≠ [])
    (h : (t.put file (.file bytes)).move file path = .ok u) :
    ∃ place, t.target path = .ok place ∧ u = t.put place (.file bytes) := by
  have hsame : t.SameDirectories (t.put file (.file bytes)) :=
    .put_file (by simp [hunused.node?_eq_none hroot]) bytes
  unfold FileTree.move at h
  cases htarget : (t.put file (.file bytes)).target path with
  | error fault => simp [htarget, bind, Except.bind] at h
  | ok place =>
    simp only [htarget, bind, Except.bind, t.node?_put_self _ hroot, hunused.erase_put] at h
    cases h
    exact ⟨place, hsame.symm.target_ok htarget, rfl⟩

theorem run_stage (w : World) (directory : Path) :
    (∃ fault, w.run (Host.attempt (Host.stage directory)) = (.error (.file fault), w)) ∨
      ∃ file, w.tree.Unused file ∧ file ≠ [] ∧
        w.run (Host.attempt (Host.stage directory)) =
          (.ok file, { w with tree := w.tree.put file (.file .empty) }) := by
  rcases w.operate_cases (.stage directory) fun t => t.stage directory with
    ⟨fault, h⟩ | ⟨-, file, staged, hact, h⟩
  · exact .inl ⟨fault, run_attempt_error h⟩
  · obtain ⟨hunused, hroot, rfl⟩ := stage_eq_ok hact
    exact .inr ⟨file, hunused, hroot, run_attempt_ok h⟩

theorem run_fill (w : World) (file : Location) (bytes : ByteArray) :
    (∃ fault, w.run (ExceptT.lift (Host.fill file bytes)) = (.ok (.error fault), w)) ∨
      w.run (ExceptT.lift (Host.fill file bytes)) =
        (.ok (.ok ()), { w with tree := w.tree.put file (.file bytes) }) := by
  rcases w.operate_cases (.fill file) fun t => .ok ((), t.put file (.file bytes)) with
    ⟨fault, h⟩ | ⟨-, _, tree, hact, h⟩
  · exact .inl ⟨fault, run_lift h⟩
  · cases hact
    exact .inr (run_lift h)

theorem run_publish (w : World) (file : Location) (path : Path) :
    (∃ fault, w.run (ExceptT.lift (Host.publish file path)) = (.ok (.error fault), w)) ∨
      ∃ tree, w.tree.move file path = .ok tree ∧
        w.run (ExceptT.lift (Host.publish file path)) = (.ok (.ok ()), { w with tree }) := by
  rcases w.operate_cases (.publish file path) fun t => (t.move file path).map ((), ·) with
    ⟨fault, h⟩ | ⟨-, _, tree, hact, h⟩
  · exact .inl ⟨fault, run_lift h⟩
  · cases hmove : w.tree.move file path with
    | error fault => simp [hmove, Except.map] at hact
    | ok moved =>
      obtain rfl : moved = tree := by simpa [hmove, Except.map] using hact
      exact .inr ⟨moved, rfl, run_lift h⟩

theorem run_discard (w : World) (file : Location) :
    w.run (ExceptT.lift (Host.discard file)) = (.ok (), { w with tree := w.tree.erase file }) := rfl

/-- A file that is given up leaves nothing behind. -/
theorem run_discard_throw {t : FileTree} {file : Location} (h : t.Unused file) (w : World)
    (node : Node) (f : Failure) :
    { w with tree := t.put file node }.run
        (ExceptT.lift (Host.discard file) >>= fun _ => (throw f : ExceptT Failure _ Unit)) =
      (.error f, { w with tree := t }) := by
  rw [run_bind_ok (run_discard _ file), run_throw, h.erase_put]

/-- Writing a file fails and changes nothing; or it succeeds, and then the file at its place is the
only change. -/
theorem run_writeText (w : World) (path : Path) (text : String) :
    (∃ fault, w.run (Host.writeText path text) = (.error (.file fault), w)) ∨
      ∃ place, w.tree.target path = .ok place ∧
        w.run (Host.writeText path text) =
          (.ok (), { w with tree := w.tree.put place (.file text.toUTF8) }) := by
  unfold Host.writeText
  rcases w.run_stage (Host.stagingDirectory path) with ⟨fault, h⟩ | ⟨file, hunused, hroot, h⟩
  · exact .inl ⟨fault, run_bind_error h⟩
  rw [run_bind_ok h]
  -- The temporary file is there now, so a failure has to give it up again.
  rcases run_fill _ file text.toUTF8 with ⟨fault, hfill⟩ | hfill
  · refine .inl ⟨fault, ?_⟩
    rw [run_bind_ok hfill]
    exact run_discard_throw hunused w _ _
  rw [FileTree.put_put] at hfill
  rw [run_bind_ok hfill]
  rcases run_publish _ file path with ⟨fault, hpublish⟩ | ⟨tree, hmove, hpublish⟩
  · refine .inl ⟨fault, ?_⟩
    dsimp only
    rw [run_bind_ok hpublish]
    exact run_discard_throw hunused w _ _
  · -- The text takes its place as if it had never been anywhere else.
    obtain ⟨place, htarget, rfl⟩ := move_put_eq_ok hunused hroot hmove
    refine .inr ⟨place, htarget, ?_⟩
    dsimp only
    rw [run_bind_ok hpublish]
    rfl

end SequenceXmi.World
