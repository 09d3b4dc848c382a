import GestureActions.Proofs.Service.Assembly

/-! # What the detector does

The detector of the service does what the host's latest signals ask for, from the start
on and after every further stimulus.
-/
namespace GestureActions.Service

theorem tally_votes (mode : AttentiveMode) (g : Signals) : Poll.tally (votes mode g) = g.setting mode := by
  have hvotes : votes mode g =
      [(⟨1⟩, (Approach.stake ⟨1⟩).vote g.hand), (⟨2⟩, (Attentive.stake ⟨2⟩ mode).vote g.presence),
       (⟨3⟩, (AlarmSilencer.stake ⟨3⟩).vote g.hush), (⟨4⟩, (AlarmSilencer.stake ⟨4⟩).vote g.snooze)] := rfl
  rw [hvotes, Signals.setting]
  cases g.hand <;> cases g.presence <;> cases g.hush <;> cases g.snooze <;> cases mode <;> rfl

/-- In a world that has come of the assembled one, the detector does what the signals
ask for. -/
theorem setting_of_follows {c : Config} {p : Preferences} {start : Instant} {w : World} {g : Signals}
    (hw : w.Follows g) (hs : World.SameVoters (assemble c p start) w) :
    w.poll.published = g.setting c.mode ∧ w.log.setting = g.setting c.mode := by
  have hnodup : ((votes c.mode g).map (·.1)).Nodup := by
    change [Client.mk 1, ⟨2⟩, ⟨3⟩, ⟨4⟩].Nodup
    decide
  have hpublished : w.poll.published = g.setting c.mode := by
    rw [hw.inStep.sound.published, ← tally_votes]
    exact Poll.tally_congr hw.inStep.sound.nodup hnodup (vote?_eq_latest c p start hw hs)
  exact ⟨hpublished, hw.inStep.setting.trans hpublished⟩

theorem screenTurned_assemble (c : Config) (p : Preferences) (start : Instant) (interactive : Bool) :
    ∃ w, (assemble c p start).screenTurned .never interactive = .done w ∧
      w.Follows ⟨some interactive, false, .idle, p.get⟩ ∧ World.SameVoters (assemble c p start) w := by
  cases interactive with
  | true => exact (follows_assemble c p start).meet (.event .screenOn)
  | false => exact (follows_assemble c p start).meet (.event .screenOff)

/-- A valid configuration starts the service, no stimulus is lost on it, and after any
history of them the detector does what the latest signals ask for. -/
theorem run_setting {c : Config} (hc : c.check = .ok c) (store : PreferenceStore) (interactive : Bool)
    (now : Instant) :
    ∃ s, start c store interactive now = .ok s ∧ ∀ h, ∃ w, s.world.run .never h = .done w ∧
      let stored := fun q : Preference => (store.get? q.key).getD (c.preferences.get q)
      let g := Signals.after ⟨some interactive, false, .idle, stored⟩ h
      w.poll.published = g.setting c.mode ∧ w.log.setting = g.setting c.mode := by
  obtain ⟨u, hu, hf, hs⟩ := screenTurned_assemble c (c.preferences.overlay store) now interactive
  refine ⟨⟨c, c.preferences.overlay store, u⟩, ?_, fun h => ?_⟩
  · rw [start, hc]
    dsimp only
    rw [hu]
    rfl
  · rw [Preferences.overlay, funext (Preferences.get_ofFunction _)] at hf
    obtain ⟨w, hw, hf', hs'⟩ := hf.run h
    exact ⟨w, hw, setting_of_follows hf' (hs.trans hs')⟩

theorem run_setting_byDefault : Config.byDefault.check = .ok Config.byDefault ∧
    ∃ s, start .byDefault [("gesture_attentive_display", true)] true 0 = .ok s ∧
      ∀ h, ∃ w, s.world.run .never h = .done w ∧
        let stored := fun q : Preference =>
          (PreferenceStore.get? [("gesture_attentive_display", true)] q.key).getD (Config.byDefault.preferences.get q)
        let g := Signals.after ⟨some true, false, .idle, stored⟩ h
        w.poll.published = g.setting .stateMerge ∧ w.log.setting = g.setting .stateMerge :=
  ⟨rfl, run_setting rfl _ true 0⟩

end GestureActions.Service
