import Optima.Engine.Files
import Optima.Exact.Ranging
import Optima.Proofs.Action
import Optima.Proofs.Host.Folder
import Optima.Proofs.Settings

/-!
# Settings files that are read back

An engine that writes its settings to a file, and any engine that reads the file with the same options, have the same
settings afterwards (`readSettings_writeSettings`).  The values have to be of the kinds of their settings, and the
written forms of the reals among them have to be read as these reals.

The section is the same for the writer and the reader whatever the options are, and it is a word
(`sectionOf_word`), so its header is read back.  The options of the file are plain (`settingOptions_plain`), so the
document is read as it was written.  Then the reader goes through the options: after some of them the settings they
name are the writer's, and the others are still the reader's own (`forM_applyOption`).
-/

namespace Optima.Engine

variable {R : Type} [Scalar R]

/-! ### What is written -/

/-- The section of a settings file is a word. -/
theorem sectionOf_word (options : String) :
    (sectionOf options).toList ≠ [] ∧ Text.Solid (sectionOf options).toList := by
  unfold sectionOf
  split
  · next flag name rest hdrop =>
    have hname : name ∈ (Text.words options.toList).map String.ofList :=
      (List.dropWhile_suffix _).mem (hdrop ▸ List.mem_cons_of_mem _ (List.mem_cons_self ..))
    obtain ⟨w, hw, rfl⟩ := List.mem_map.1 hname
    rw [String.toList_ofList]
    exact Text.mem_words hw
  · exact ⟨by decide, .of_all rfl⟩

theorem settingOptions_plain {e : Engine R} (hkinds : ∀ x : Setting, x.kind.Allows (e.settings.get x))
    (htexts : ∀ y : R, Decimal.Plain (Scalar.text y).toList) : Ini.PlainOptions e.settingOptions := by
  refine ⟨?_, ?_, ?_⟩
  · intro o ho
    obtain ⟨x, -, rfl⟩ := List.mem_map.1 ho
    exact x.fileKey_plain
  · intro o ho
    obtain ⟨x, -, rfl⟩ := List.mem_map.1 ho
    exact (Setting.Kind.plain_written (hkinds x) htexts).1
  · rw [settingOptions, List.map_map]
    exact Setting.nodup_all.map Setting.fileKey_injective

omit [Scalar R] in
theorem tryFiles_eq_true {change : Folder → Except FileFault Folder} {complaint : String} {h h' : Host R}
    (hrun : Host.tryFiles change complaint h = .ok true h') :
    ∃ folder, change h.folder = .ok folder ∧ h' = { h with folder := folder } := by
  unfold Host.tryFiles at hrun
  rw [Action.get_bind_run] at hrun
  cases hchange : change h.folder with
  | ok folder =>
    rw [hchange] at hrun
    cases hrun
    exact ⟨folder, rfl, rfl⟩
  | error fault =>
    rw [hchange] at hrun
    cases hrun

/-- After settings have been written, the file holds them in the section that the options name. -/
theorem writeSettings_read {path options : String} {s s' : Session R}
    (hwrite : writeSettings path options s = .ok true s') : s'.host.folder.read path =
      .ok (Ini.Document.ofSection (sectionOf options) s.engine.settingOptions).write := by
  unfold writeSettings at hwrite
  rw [Action.get_bind_run] at hwrite
  obtain ⟨_, t, hcheck, hfiles⟩ := Action.bind_eq_ok.1 hwrite
  -- The check of the percent signs either stops or leaves everything as it is.
  have hsame : t = s := by
    refine (show Action.Keeps (id : Session R → Session R) _ from .forM fun o _ => ?_).ok hcheck
    obtain ⟨key, value⟩ := o
    dsimp only
    split
    · exact .throw _
    · exact .pure _
  subst hsame
  obtain ⟨host, htry, rfl⟩ := Action.on_eq_ok.1 hfiles
  obtain ⟨folder, hfolder, rfl⟩ := tryFiles_eq_true htry
  exact Folder.read_write hfolder

/-! ### What is read -/

theorem readSettings_eq_ok {path options text : String} {document : Ini.Document} {settings : Ini.Options}
    {s : Session R} {e : Engine R} (hread : s.host.folder.read path = .ok text)
    (hdocument : Ini.Document.read path text = .ok document)
    (hsection : document.optionsOf? (sectionOf options) = some settings)
    (hrun : settings.forM (applyOption (sectionOf options) settings) s.engine = .ok ⟨⟩ e) :
    readSettings path options s = .ok true { s with engine := e } := by
  have hinside : inside (settings.forM (applyOption (sectionOf options) settings)) s =
      .ok ⟨⟩ { s with engine := e } :=
    Action.on_eq_ok.2 ⟨e, hrun, rfl⟩
  unfold readSettings
  rw [Action.get_bind_run, hread]
  simp only [hdocument, hsection]
  exact Action.bind_ok hinside _

section Reader

variable {w : Settings R} (hkinds : ∀ x : Setting, x.kind.Allows (w.get x))
  (htexts : ∀ y : R, Decimal.Plain (Scalar.text y).toList)
  (hreads : ∀ x y, w.get x = .real y → Scalar.isNaN y = false → Scalar.read? (Scalar.text y) = some y)

include hkinds htexts hreads

/-- One option sets its setting. -/
theorem applyOption_written (name : String) (options : Ini.Options) (x : Setting) (e : Engine R) :
    ∃ settings, applyOption name options (x.fileKey, (w.get x).written) e = .ok ⟨⟩ { e with settings := settings } ∧
      ∀ y, settings.get y = if y = x then w.get x else e.settings.get y := by
  obtain ⟨settings, hset, hget⟩ := e.settings.set_allowed (hkinds x)
  have hpercent := (Setting.Kind.plain_written (hkinds x) htexts).2
  refine ⟨settings, ?_, hget⟩
  unfold applyOption
  rw [Setting.ofFileKey?_fileKey, Ini.value_plain hpercent]
  show (Action.lift (x.kind.read (w.get x).written) >>= putSetting x) e = _
  rw [Setting.Kind.read_written (hkinds x) (hreads x), Action.lift_ok_bind_run, putSetting, Action.get_bind_run, hset]
  rfl

/-- Options set their settings and leave the others. -/
theorem forM_applyOption (name : String) (options : Ini.Options) (l : List Setting) (e : Engine R) :
    ∃ settings, (l.map fun x => (x.fileKey, (w.get x).written)).forM (applyOption name options) e =
        .ok ⟨⟩ { e with settings := settings } ∧
      ∀ y, settings.get y = if y ∈ l then w.get y else e.settings.get y := by
  induction l generalizing e with
  | nil => exact ⟨e.settings, rfl, fun y => (if_neg List.not_mem_nil).symm⟩
  | cons x l ih =>
    obtain ⟨first, hfirst, hget⟩ := applyOption_written hkinds htexts hreads name options x e
    obtain ⟨settings, hrest, hall⟩ := ih { e with settings := first }
    refine ⟨settings, (Action.bind_ok hfirst _).trans hrest, fun y => ?_⟩
    rw [hall y]
    show (if y ∈ l then w.get y else first.get y) = _
    rw [hget y]
    by_cases hy : y ∈ l
    · rw [if_pos hy, if_pos (List.mem_cons_of_mem _ hy)]
    · rw [if_neg hy]
      by_cases hx : y = x
      · subst hx
        rw [if_pos rfl, if_pos (List.mem_cons_self ..)]
      · rw [if_neg hx, if_neg fun hmem => (List.mem_cons.1 hmem).elim hx hy]

end Reader

/-- Settings that were written are read back by any engine that finds the file.  Nothing but its settings changes. -/
theorem readSettings_writeSettings {path options : String} {s s' t : Session Float}
    (hkinds : ∀ x : Setting, x.kind.Allows (s.engine.settings.get x))
    (hreads : ∀ x y, s.engine.settings.get x = .real y → Scalar.isNaN y = false →
      Scalar.read? (Scalar.text y) = some y)
    (hwrite : writeSettings path options s = .ok true s') (hfiles : t.host.folder = s'.host.folder) :
    ∃ settings, readSettings path options t = .ok true { t with engine := { t.engine with settings := settings } } ∧
      settings.sentinel = s.engine.settings.sentinel ∧ ∀ x, settings.get x = s.engine.settings.get x := by
  have htexts (y : Float) : Decimal.Plain (Scalar.text y).toList := Decimal.plain_text _
  obtain ⟨hne, hsolid⟩ := sectionOf_word options
  have hread : t.host.folder.read path =
      .ok (Ini.Document.ofSection (sectionOf options) s.engine.settingOptions).write := by
    rw [hfiles]
    exact writeSettings_read hwrite
  obtain ⟨settings, hrun, hget⟩ := forM_applyOption hkinds htexts hreads (sectionOf options) s.engine.settingOptions
    Setting.all t.engine
  have hsame (x : Setting) : settings.get x = s.engine.settings.get x := (hget x).trans (if_pos x.mem_all)
  refine ⟨settings, ?_, Value.real.inj (hsame .infinite), hsame⟩
  refine readSettings_eq_ok hread ?_ (Ini.optionsOf?_ofSection _ _) hrun
  exact Ini.read_write hne hsolid (List.cons_ne_nil _ _) (settingOptions_plain hkinds htexts) path

/-- A new engine without files around it. -/
def untuned : Session Float :=
  ⟨new 1 .none ⟨1, .empty, Search.Knobs.start, none⟩, Host.start (.script []) Exact.ranging⟩

def tunedSettings : Settings Float where
  sentinel := Scalar.decimal 1 20
  others
    | .epsint => .real (Scalar.decimal 1 (-5))
    | .simplexType => .ofMember SimplexType.primalDual
    | .breakAtFirst => .flag true
    | x => Setting.start x

def tuned : Session Float :=
  { untuned with engine := { untuned.engine with settings := tunedSettings } }

theorem readSettings_writeSettings_tuned : ∃ s' settings,
    (∀ x : Setting, x.kind.Allows (tunedSettings.get x)) ∧
    (∀ x y, tunedSettings.get x = .real y → Scalar.isNaN y = false → Scalar.read? (Scalar.text y) = some y) ∧
    writeSettings "model.ini" "-v -H tuned" tuned = .ok true s' ∧
    readSettings "model.ini" "-v -H tuned" { untuned with host := s'.host } =
      .ok true ⟨{ untuned.engine with settings := settings }, s'.host⟩ ∧
    settings.sentinel = Scalar.decimal 1 20 ∧ ∀ x, settings.get x = tunedSettings.get x := by
  have hkinds (x : Setting) : x.kind.Allows (tunedSettings.get x) := by
    cases x <;> first | exact ⟨_, rfl⟩ | exact ⟨_, rfl, by decide +kernel⟩
  have hreads : ∀ x y, tunedSettings.get x = .real y → Scalar.isNaN y = false →
      Scalar.read? (Scalar.text y) = some y := by
    have hall : ∀ x ∈ Setting.all, (match tunedSettings.get x with
        | .real y => decide (Scalar.read? (Scalar.text y) = some y)
        | _ => true) = true := by
      decide +kernel
    intro x y hy _
    have hx := hall x x.mem_all
    rw [hy] at hx
    exact of_decide_eq_true hx
  have hwritten : (match writeSettings "model.ini" "-v -H tuned" tuned with
      | .ok written _ => written
      | .error _ _ => false) = true := by
    decide +kernel
  cases hwrite : writeSettings "model.ini" "-v -H tuned" tuned with
  | error fault s' =>
    rw [hwrite] at hwritten
    cases hwritten
  | ok written s' =>
    rw [hwrite] at hwritten
    obtain rfl : written = true := hwritten
    obtain ⟨settings, hread, hsentinel, hsame⟩ := readSettings_writeSettings (s := tuned)
      (t := { untuned with host := s'.host }) hkinds hreads hwrite rfl
    exact ⟨s', settings, hkinds, hreads, rfl, hread, hsentinel, hsame⟩

end Optima.Engine
