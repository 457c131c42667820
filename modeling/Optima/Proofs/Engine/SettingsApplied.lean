import Optima.Proofs.Engine.SettingsFile

/-!
# Settings files that are refused

A settings file is not looked through before it is applied.  Its options are taken one after the other, and each one
that is understood sets its setting at once; the first one that is not understood stops the reading.  So what a refused
file leaves behind is known from the file alone: the settings that were named before that option have the values given
last, and all others are as they were (`forM_applyOption_cases`, `readSettings_leaves`).

A file that is not there, that has no section of the name asked for, or that is no document at all changes nothing.  A
file that is refused for one of its options leaves the settings as they were exactly when the options before that one
said nothing new.
-/

namespace Optima.Engine

variable {R : Type} [Scalar R]

/-! ### What options say -/

/-- What an option says: the value of a setting. -/
def said (R : Type) [Scalar R] (name : String) (options : Ini.Options) (option : String × String) :
    Except Fault (Setting × Value R) :=
  match Setting.ofFileKey? option.1 with
  | none => .error (.unknownFileKey option.1)
  | some x =>
    match options.value name option.1 option.2 with
    | .error fault => .error (.ini fault)
    | .ok text => (x.kind.read text).map fun v => (x, v)

/-- What the options say before the first one that is not understood. -/
def heeded (R : Type) [Scalar R] (name : String) (options : Ini.Options) : Ini.Options → List (Setting × Value R)
  | [] => []
  | option :: rest =>
    match said R name options option with
    | .ok value => value :: heeded R name options rest
    | .error _ => []

/-- Why the first option that is not understood is not. -/
def complaint? (R : Type) [Scalar R] (name : String) (options : Ini.Options) : Ini.Options → Option Fault
  | [] => none
  | option :: rest =>
    match said R name options option with
    | .ok _ => complaint? R name options rest
    | .error fault => some fault

/-- The value that is given to a setting last. -/
def lastSaid? : List (Setting × Value R) → Setting → Option (Value R)
  | [], _ => none
  | (x, v) :: rest, y => (lastSaid? rest y).or (if y = x then some v else none)

/-- The value of a setting after values have been given to some settings. -/
def overlaid (s : Settings R) (values : List (Setting × Value R)) (x : Setting) : Value R :=
  (lastSaid? values x).getD (s.get x)

/-! ### Applying options -/

/-- An option that is understood puts its setting. -/
theorem applyOption_eq (name : String) (options : Ini.Options) (option : String × String) :
    applyOption name options option =
      Action.lift (said R name options option) >>= fun put => putSetting put.1 put.2 := by
  funext e
  unfold applyOption said
  cases Setting.ofFileKey? option.1 with
  | none => rfl
  | some x =>
    cases options.value name option.1 option.2 with
    | error fault => rfl
    | ok text => cases hread : (x.kind.read text : Except Fault (Value R)) <;> simp [hread, Except.map]

theorem said_read {name : String} {options : Ini.Options} {option : String × String} {x : Setting} {v : Value R}
    (h : said R name options option = .ok (x, v)) : ∃ text, x.kind.read text = .ok v := by
  unfold said at h
  split at h
  · cases h
  · next y _ =>
    split at h
    · cases h
    · next text _ =>
      cases hread : (y.kind.read text : Except Fault (Value R)) with
      | ok u =>
        rw [hread] at h
        cases h
        exact ⟨text, hread⟩
      | error fault =>
        rw [hread] at h
        cases h

/-- An option that is not understood stops without a change. -/
theorem applyOption_refused {name : String} {options : Ini.Options} {option : String × String} {fault : Fault}
    (h : said R name options option = .error fault) (e : Engine R) :
    applyOption name options option e = .error fault e := by
  rw [applyOption_eq, h]
  rfl

/-- An option that is understood sets its setting, and no other. -/
theorem applyOption_heeded {name : String} {options : Ini.Options} {option : String × String} {x : Setting}
    {v : Value R} (h : said R name options option = .ok (x, v)) (e : Engine R) :
    ∃ settings, applyOption name options option e = .ok ⟨⟩ { e with settings := settings } ∧
      ∀ y, settings.get y = if y = x then v else e.settings.get y := by
  obtain ⟨text, hread⟩ := said_read h
  obtain ⟨settings, hset, hget⟩ := e.settings.set_read hread
  refine ⟨settings, ?_, hget⟩
  rw [applyOption_eq, h, Action.lift_ok_bind_run, putSetting, Action.get_bind_run, hset]
  rfl

omit [Scalar R] in
/-- A value that is given first stays unless its setting is given another one. -/
theorem overlaid_cons {s t : Settings R} {x : Setting} {v : Value R}
    (hget : ∀ y, t.get y = if y = x then v else s.get y) (values : List (Setting × Value R)) (y : Setting) :
    overlaid t values y = overlaid s ((x, v) :: values) y := by
  rw [overlaid, overlaid, lastSaid?, hget]
  cases lastSaid? values y with
  | some u => rfl
  | none => by_cases hy : y = x <;> simp [hy]

/-- Options are applied up to the first one that is not understood, and what they said before it stays. -/
theorem forM_applyOption_cases (name : String) (options l : Ini.Options) (e : Engine R) :
    ∃ settings, l.forM (applyOption name options) e =
        Action.lift ((complaint? R name options l).elim (.ok ⟨⟩) .error) { e with settings := settings } ∧
      ∀ x, settings.get x = overlaid e.settings (heeded R name options l) x := by
  induction l generalizing e with
  | nil => exact ⟨e.settings, rfl, fun _ => rfl⟩
  | cons option rest ih =>
    unfold heeded complaint?
    cases hsaid : said R name options option with
    | error fault => exact ⟨e.settings, Action.bind_error (applyOption_refused hsaid e) _, fun _ => rfl⟩
    | ok value =>
      obtain ⟨x, v⟩ := value
      obtain ⟨first, hfirst, hget⟩ := applyOption_heeded hsaid e
      obtain ⟨settings, hrest, hall⟩ := ih { e with settings := first }
      exact ⟨settings, (Action.bind_ok hfirst _).trans hrest, fun y => (hall y).trans (overlaid_cons hget _ y)⟩

omit [Scalar R] in
/-- What values change: nothing, when the last one for each setting is the one it has. -/
theorem overlaid_same {s : Settings R} {values : List (Setting × Value R)} :
    (∀ x, overlaid s values x = s.get x) ↔ ∀ x v, lastSaid? values x = some v → v = s.get x := by
  refine forall_congr' fun x => ?_
  unfold overlaid
  cases lastSaid? values x <;> simp

/-! ### Reading a file -/

/-- The options a settings file has for the section asked for, if there is such a file with such a section. -/
def offered (path options : String) (folder : Folder) : Except Fault (Option Ini.Options) :=
  match folder.read path with
  | .error _ => .ok none
  | .ok text =>
    match Ini.Document.read path text with
    | .error fault => .error (.ini fault)
    | .ok document => .ok (document.optionsOf? (sectionOf options))

/-- What a settings file says before its first option that is not understood. -/
def fileHeeded (R : Type) [Scalar R] (path options : String) (folder : Folder) : List (Setting × Value R) :=
  match offered path options folder with
  | .ok (some l) => heeded R (sectionOf options) l l
  | _ => []

/-- Whether there are settings to read, or why they are not all read. -/
def fileAnswer (R : Type) [Scalar R] (path options : String) (folder : Folder) : Except Fault Bool :=
  match offered path options folder with
  | .error fault => .error fault
  | .ok none => .ok false
  | .ok (some l) => (complaint? R (sectionOf options) l l).elim (.ok true) .error

theorem readSettings_offered (path options : String) (s : Session R) :
    readSettings path options s = (Action.lift (offered path options s.host.folder) >>= fun
      | none => pure false
      | some l => do
        inside (l.forM (applyOption (sectionOf options) l))
        pure true : Work R Bool) s := by
  unfold readSettings offered
  rw [Action.get_bind_run]
  cases s.host.folder.read path with
  | error fault => rfl
  | ok text =>
    dsimp only
    cases Ini.Document.read path text with
    | error fault => rfl
    | ok document =>
      dsimp only
      cases document.optionsOf? (sectionOf options) <;> rfl

/-- Reading a settings file changes the settings and nothing else: a setting has the value that is given to it last
before the first option that is not understood. -/
theorem readSettings_overlays (path options : String) (s : Session R) :
    ∃ settings, readSettings path options s = Action.lift (fileAnswer R path options s.host.folder)
        { s with engine := { s.engine with settings := settings } } ∧
      ∀ x, settings.get x = overlaid s.engine.settings (fileHeeded R path options s.host.folder) x := by
  rw [readSettings_offered]
  unfold fileAnswer fileHeeded
  cases offered path options s.host.folder with
  | error fault => exact ⟨s.engine.settings, rfl, fun _ => rfl⟩
  | ok found =>
    cases found with
    | none => exact ⟨s.engine.settings, rfl, fun _ => rfl⟩
    | some l =>
      obtain ⟨settings, hrun, hget⟩ := forM_applyOption_cases (sectionOf options) l l s.engine
      refine ⟨settings, ?_, hget⟩
      have hinside : inside (l.forM (applyOption (sectionOf options) l)) s =
          Action.lift ((complaint? R (sectionOf options) l l).elim (.ok ⟨⟩) .error)
            { s with engine := { s.engine with settings := settings } } := by
        unfold inside Action.on
        rw [hrun]
        cases complaint? R (sectionOf options) l l <;> rfl
      rw [Action.lift_ok_bind_run]
      dsimp only
      cases hcomplaint : complaint? R (sectionOf options) l l with
      | none =>
        rw [hcomplaint] at hinside
        exact Action.bind_ok hinside _
      | some fault =>
        rw [hcomplaint] at hinside
        exact Action.bind_error hinside _

/-- When there is nothing to read, nothing changes. -/
theorem readSettings_absent {path options : String} {s : Session R}
    (h : fileAnswer R path options s.host.folder = .ok false) : readSettings path options s = .ok false s := by
  rw [readSettings_offered]
  unfold fileAnswer at h
  cases hoffered : offered path options s.host.folder with
  | error fault =>
    rw [hoffered] at h
    cases h
  | ok found =>
    cases found with
    | none => rfl
    | some l =>
      rw [hoffered] at h
      dsimp only at h
      cases hcomplaint : complaint? R (sectionOf options) l l <;> rw [hcomplaint] at h <;> cases h

/-- What reading a settings file leaves, whatever the file holds.  The settings are those from before with what the
file says in front of its first option that is not understood, and nothing else changes.  A file or a section that is
not there leaves everything as it was.  When the file is refused, the settings are as they were if and only if what it
said in front of that option was nothing new. -/
theorem readSettings_leaves (path options : String) (s : Session R) :
    (∃ settings, readSettings path options s = Action.lift (fileAnswer R path options s.host.folder)
        { s with engine := { s.engine with settings := settings } } ∧
      ∀ x, settings.get x = overlaid s.engine.settings (fileHeeded R path options s.host.folder) x) ∧
    (∀ t, readSettings path options s = .ok false t → t = s) ∧
    ∀ fault t, readSettings path options s = .error fault t →
      ((∀ x, t.engine.settings.get x = s.engine.settings.get x) ↔
        ∀ x v, lastSaid? (fileHeeded R path options s.host.folder) x = some v → v = s.engine.settings.get x) := by
  obtain ⟨settings, hrun, hget⟩ := readSettings_overlays path options s
  refine ⟨⟨settings, hrun, hget⟩, ?_, ?_⟩
  · intro t hfalse
    have hanswer := (Action.lift_eq_ok.1 (hrun.symm.trans hfalse)).1
    rw [readSettings_absent hanswer] at hfalse
    cases hfalse
    rfl
  · intro fault t hfault
    have hsettings : t.engine.settings = settings := by
      rw [hrun] at hfault
      cases hanswer : fileAnswer R path options s.host.folder with
      | ok found =>
        rw [hanswer] at hfault
        cases hfault
      | error cause =>
        rw [hanswer] at hfault
        cases hfault
        rfl
    rw [hsettings, ← overlaid_same]
    simp only [hget]

/-- A new engine next to a settings file whose second option has a name that no setting has. -/
def mistuned : Session Float :=
  { untuned with host := { untuned.host with
      folder := ⟨[(["bad.ini"], .file "[Default]\nEpsint = 0.5\nColour = blue\n")]⟩ } }

/-- A file that is refused need not leave the settings as they were. -/
theorem settings_half_read :
    ¬∀ (path options : String) (s t : Session Float) (fault : Fault), readSettings path options s = .error fault t →
      ∀ x, t.engine.settings.get x = s.engine.settings.get x := by
  intro hclaim
  have hrun : (match readSettings "bad.ini" "" mistuned with
      | .ok _ _ => false
      | .error _ t => decide ((t.engine.settings.get .epsint).written = "0.5")) = true := by
    decide +kernel
  cases hread : readSettings "bad.ini" "" mistuned with
  | ok found t =>
    rw [hread] at hrun
    cases hrun
  | error fault t =>
    rw [hread] at hrun
    have hsame := congrArg Value.written (hclaim _ _ _ _ _ hread .epsint)
    rw [of_decide_eq_true hrun] at hsame
    revert hsame
    decide +kernel

end Optima.Engine
