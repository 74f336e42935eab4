import DecodePipeline.Proofs.Run.Blame
import DecodePipeline.Proofs.Stage.Gathering

/-!
Discovery as a task of a run: what it publishes does not depend on the others. They neither scan the
catalog nor publish, and the supervisor ends discovery at most where it stands.
-/

namespace DecodePipeline.Run

variable {w : World} {s : Settings} {r r' : Run} {d d' : Discovery} {c c' : Consumption}
  {entries : List SourceEntry}

theorem Works.course (h : Works w r d c r' d' c') (course : d.Course w r.hub entries) :
    ∃ new, d'.Course w r'.hub (entries ++ new) := by
  cases h with
  | discovery _ _ moved =>
      obtain ⟨new, course', _⟩ := course.moves moved
      exact ⟨new, course'⟩
  | worker _ _ _ _ _ moved =>
      refine ⟨[], ?_⟩
      rw [List.append_nil]
      exact course.congr moved.scans moved.kept.cancelled.trans
  | consumption _ _ moved =>
      refine ⟨[], ?_⟩
      rw [List.append_nil]
      exact course.congr moved.scans moved.kept.cancelled.trans
  | supervisor supervises =>
      have attended := supervises.attended
      have left := course.congr attended.scans attended.cancelled
      refine ⟨[], ?_⟩
      rw [List.append_nil]
      obtain rfl | rfl := supervises.tasks.1
      · exact left
      · exact left.abort

/-- A run with what discovery has published in it, and no faults but those that a task may have. -/
structure Charted (w : World) (s : Settings) (r : Run) (d : Discovery) (c : Consumption) :
    Prop where
  coherent : Coherent s r d c
  faults : Faults r d c
  course : ∃ entries, d.Course w r.hub entries

theorem charted_launch (w : World) (s : Settings) (now : Nat) (cancelled : Bool) :
    Charted w s (fresh s now cancelled).launch (firstDiscovery s) (firstConsumption s) where
  coherent := coherent_launch s now cancelled
  faults := faults_launch s now cancelled
  course := ⟨[], Discovery.course_first w _ rfl s.mode s.maxItems⟩

theorem Charted.works (charted : Charted w s r d c) (h : Works w r d c r' d' c') :
    Charted w s r' d' c' := by
  obtain ⟨entries, course⟩ := charted.course
  obtain ⟨new, course'⟩ := h.course course
  exact ⟨charted.coherent.works h, charted.faults.works charted.coherent h, _, course'⟩

theorem Charted.cancel (charted : Charted w s r d c) : Charted w s r.cancel d c := by
  obtain ⟨entries, course⟩ := charted.course
  exact ⟨charted.coherent.cancel, charted.faults.cancel, entries, course.congr rfl fun _ => rfl⟩

theorem Charted.clock (charted : Charted w s r d c) (time : Nat) :
    Charted w s (setClock time r) d c := by
  obtain ⟨entries, course⟩ := charted.course
  exact ⟨charted.coherent.clock time, { charted.faults with }, entries, course.congr rfl id⟩

theorem charted_of_reached {r₀ : Run} (started : begin s = .ok r₀)
    (reached : Relation.ReflTransGen (Change w) r₀ r) :
    (∃ now cancelled, r = fresh s now cancelled) ∨ ∃ d c, Charted w s r d c := by
  have invariant := launched_induction (w := w) (P := Charted w s) (charted_launch w s)
    Charted.works Charted.cancel (fun time _ charted => charted.clock time) started reached
  exact invariant.imp_right fun ⟨d, c, _, charted⟩ => ⟨d, c, charted⟩

end DecodePipeline.Run
