import Switchboard.Proofs.Station.Offers

/-!
# Starting a station

A station counts as running from the moment its bots are being loaded, and
nothing takes this back: not an error of the loading, not a registrar that
panics or does not come to an end. So a station that could not be started is
running as well as one that could (`StationState.start_leaves_running`), and to
start it once more does nothing and succeeds. Only once it was stopped does a
start load bots again.
-/

namespace Switchboard

namespace StationState

variable {α β γ σ : Type} {B : StationCode β σ} {patience : Option Nat} {s : StationState β σ}

open StationProgram

/-- A station that counts as running. -/
def asRunning (s : StationState β σ) : StationState β σ :=
  { s with station := { s.station with running := true } }

/-- **A station that is running is not started again.** -/
theorem run_start_of_running (B : StationCode β σ) (patience : Option Nat)
    (hrunning : s.station.running = true) (c : BotsConfig) :
    run B patience (start c) s = (some (.ok (.ok ())), s) ∧ offers B patience (start c) s = [] := by
  simp [start, run, offers, answer, hrunning, StationCall.offer?]

/-- Work of whose value something is made runs as the work does. -/
theorem run_bind_done {m : StationProgram β α} {f : α → StationProgram β γ} {g : α → γ}
    (hf : ∀ a, f a = .done (g a)) (s : StationState β σ) :
    run B patience (m.bind f) s =
      ((run B patience m s).1.map (Except.map g), (run B patience m s).2) := by
  rw [run_bind]
  match run B patience m s with
  | (some (.ok a), s') =>
    simp only [hf]
    rfl
  | (some (.error p), s') => rfl
  | (none, s') => rfl

/-- **A station that is not running loads its bots as a running one.** -/
theorem run_start_of_stopped (B : StationCode β σ) (patience : Option Nat)
    (hstopped : s.station.running = false) (c : BotsConfig) :
    run B patience (start c) s =
      if c.autoLoad then
        ((run B patience (loadBots c.directories) s.asRunning).1.map
            (Except.map (Except.map fun _ => ())),
          (run B patience (loadBots c.directories) s.asRunning).2)
      else (some (.ok (.ok ())), s.asRunning) := by
  simp only [start, run, answer, hstopped]
  split
  · exact run_bind_done (by intro r; cases r <;> rfl) s.asRunning
  · rfl

/-- Where starting is only the first part, what it does not succeed with is the
end of all. -/
theorem run_startAndStop_of_error {c : BotsConfig} {e : StationError} {s' : StationState β σ}
    (h : run B patience (start c) s = (some (.ok (.error e)), s')) :
    run B patience (startAndStop c) s = (some (.ok (.error e)), s') := by
  rw [startAndStop, run_bind, h]
  rfl

/-- **A station that is stopped is not running**, whatever becomes of its hub. -/
theorem station_stop (s : StationState β σ) :
    (run B patience stop s).2.station = { s.station with running := false } := by
  cases hrunning : s.station.running with
  | false =>
    simp only [stop, run, answer, hrunning]
    rw [← hrunning]
  | true =>
    simp only [stop, run, answer, hrunning]
    -- what the hub is asked leaves the station alone
    split <;> next hhub => exact (congrArg (fun r => r.2.station) hhub).symm

/-- **A station that was started is running**, whatever comes of it. If it was
not running and bots are loaded, starting it comes to what the loading comes to:
it succeeds if the loading gives bots and otherwise ends as the loading does, be
it with an error. Either way the station is running afterwards, with the bots
that were registered, and to start it once more succeeds and does nothing. Where
starting it is only the first part, an error of it is the end of all, and the
station stays running. It takes a stop to have bots loaded again. -/
theorem start_leaves_running (B : StationCode β σ) (patience : Option Nat)
    (s : StationState β σ) (hstopped : s.station.running = false) (c : BotsConfig) :
    let os := offers B patience (loadBots c.directories) s.asRunning
    let loaded := (run B patience (loadBots c.directories) s.asRunning).1
    let (r, s') := run B patience (start c) s
    s'.station = { s.station with
        running := true
        bots := s.station.bots ++ if c.autoLoad then Offer.bots os else [] } ∧
      (c.autoLoad = true → Loads s.station.registrars s.station.Finds c.directories os loaded ∧
        r = loaded.map (Except.map (Except.map fun _ => ()))) ∧
      (c.autoLoad = false → r = some (.ok (.ok ()))) ∧
      (∀ c', run B patience (start c') s' = (some (.ok (.ok ())), s') ∧
        offers B patience (start c') s' = []) ∧
      (∀ e, r = some (.ok (.error e)) →
        run B patience (startAndStop c) s = (some (.ok (.error e)), s')) ∧
      (run B patience stop s').2.station = { s'.station with running := false } := by
  intro os loaded
  have hmeets : Meets B patience s.asRunning (loadBots c.directories) _ :=
    meets_loadBots c.directories s.asRunning
  obtain ⟨hstation, hloads⟩ := hmeets
  have hstart := run_start_of_stopped B patience hstopped c
  rcases hr : run B patience (start c) s with ⟨r, s'⟩
  rw [hr] at hstart
  have hs' : s'.station = { s.station with
      running := true
      bots := s.station.bots ++ if c.autoLoad then Offer.bots os else [] } := by
    split at hstart
    · next hauto =>
      rw [(Prod.mk.inj hstart).2, hstation, if_pos hauto]
      rfl
    · next hauto =>
      rw [(Prod.mk.inj hstart).2, if_neg hauto, List.append_nil]
      rfl
  have hrunning : s'.station.running = true := by rw [hs']
  refine ⟨hs', fun hauto => ⟨hloads, ?_⟩, fun hauto => ?_, run_start_of_running B patience hrunning,
    fun e he => run_startAndStop_of_error (he ▸ hr), station_stop s'⟩
  · rw [if_pos hauto] at hstart
    exact (Prod.mk.inj hstart).1
  · rw [if_neg (by simp [hauto])] at hstart
    exact (Prod.mk.inj hstart).1

/-- A station with one record and one registrar, which says of every account
that it is locked. -/
def locked : StationState Unit Unit where
  station := {
    config := .default
    loader := .standard
    surroundings := {
      files := .directory [(.ofText "bots", .directory [(.ofText "a.bot.json",
        .file (Text.Utf8.encode "\x7b\"component\": \"alpha\"\x7d"))])]
      directory := []
      userDirectory := ""
      environment := [] }
    registrars := [⟨"alpha", ()⟩]
    bots := []
    running := false }
  machine := .fresh (.fresh .empty .default ())

/-- The code of a station whose registrars say of every account that it is
locked. -/
def lockedCode : StationCode Unit Unit where
  hub := {
    filter _ _ := .done true
    matcher _ _ := .done true
    handler _ _ := .done (.text "hi")
    listenerInterceptor _ _ := .call .proceed .done
    processingInterceptor _ _ := .call .proceed .done
    onFailure := none }
  register _ _ := .done (.error (.failed "account locked"))
  serve _ := .done ()

/-- Starting this station comes to the error of its registrar. -/
theorem run_start_locked :
    run lockedCode none (start .default) locked =
      (some (.ok (.error (.register "alpha" "a.bot.json" "account locked"))), locked.asRunning) := by
  have hload : locked.asRunning.station.loader.loadDirectory
      locked.asRunning.station.surroundings.files locked.asRunning.station.surroundings.directory
      "bots" = .ok [⟨"a.bot.json", "alpha", [("component", .str "alpha")]⟩] := by cbv
  have hloads : run lockedCode none (loadBots BotsConfig.default.directories) locked.asRunning =
      (some (.ok (.error (.register "alpha" "a.bot.json" "account locked"))), locked.asRunning) := by
    show run lockedCode none (loadBots ["bots"]) locked.asRunning = _
    simp only [loadBots, loadBotsFrom, Program.call_bind, run, answer, hload]
    rfl
  have hauto : BotsConfig.default.autoLoad = true := rfl
  rw [run_start_of_stopped lockedCode none rfl, if_pos hauto, hloads]
  rfl

/-- The station could not be started and is running, and its next start does
nothing. -/
theorem start_leaves_running_locked :
    run lockedCode none (startAndStop .default) locked =
        (some (.ok (.error (.register "alpha" "a.bot.json" "account locked"))), locked.asRunning) ∧
      run lockedCode none (start .default) locked.asRunning
        = (some (.ok (.ok ())), locked.asRunning) ∧
      (run lockedCode none stop locked.asRunning).2.station.running = false := by
  have h := start_leaves_running lockedCode none locked rfl .default
  rw [run_start_locked] at h
  obtain ⟨-, -, -, hagain, hfirst, hstop⟩ := h
  exact ⟨hfirst _ rfl, (hagain .default).1, by rw [hstop]⟩

/-- **A start that fails leaves a station running**: this one is not running,
starting it comes to an error, and then it is running, and starting it again
succeeds without loading anything. -/
theorem failed_start_runs :
    locked.station.running = false ∧
      ∃ s', run lockedCode none (start .default) locked
          = (some (.ok (.error (.register "alpha" "a.bot.json" "account locked"))), s') ∧
        s'.station.running = true ∧
        run lockedCode none (start .default) s' = (some (.ok (.ok ())), s') ∧
        offers lockedCode none (start .default) s' = [] ∧ s'.station.bots = [] := by
  obtain ⟨hagain, hnone⟩ := run_start_of_running lockedCode none (s := locked.asRunning) rfl .default
  exact ⟨rfl, _, run_start_locked, rfl, hagain, hnone, rfl⟩

end StationState

end Switchboard
