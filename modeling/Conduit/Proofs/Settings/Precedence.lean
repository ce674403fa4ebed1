/-
What the environment and a file give for the settings, and what comes of it: a setting has what the environment gives
for it, else what the file gives, else its default, and the settings are refused only where the interval comes to zero.
-/
import Conduit.Proofs.Settings.Layering

namespace Conduit.Settings

open Conduit.Settings.Tree (Step)
open Document (lastAt lastAt_cons)

namespace Setting

variable {x : Setting} {env files : List (String × String)} {file : List (String × Document)} {path : Option String}

/-! ## What values mean -/

/-- What a value without parts means for a setting. -/
def ofScalar? (x : Setting) (c : Scalar) : Option x.Value := (x.read (.scalar c none)).toOption

theorem toOption_asTruth (c : Scalar) (origin : Option String) :
    (Tree.scalar c origin).asTruth.toOption = (Tree.scalar c none).asTruth.toOption := by
  cases c with
  | text s => unfold Tree.asTruth; dsimp only; split_ifs <;> rfl
  | null | bool | int | float => rfl

theorem toOption_asCount (c : Scalar) (origin : Option String) :
    (Tree.scalar c origin).asCount.toOption = (Tree.scalar c none).asCount.toOption := by
  cases c with
  | int i => unfold Tree.asCount; dsimp only; split <;> rfl
  | text s =>
    unfold Tree.asCount
    dsimp only
    split_ifs
    · rfl
    · rfl
    · cases Numeral.natural? s.toList with
      | none => rfl
      | some n => dsimp only; split <;> rfl
  | null | bool | float => rfl

theorem toOption_asText (c : Scalar) (origin : Option String) :
    (Tree.scalar c origin).asText.toOption = (Tree.scalar c none).asText.toOption := by cases c <;> rfl

/-- What a value means does not depend on where it came from. -/
theorem toOption_read (x : Setting) (c : Scalar) (origin : Option String) :
    (x.read (.scalar c origin)).toOption = x.ofScalar? c := by
  cases x with
  | interval => exact toOption_asCount c origin
  | withTarget | withThreadIds | withAnsi => exact toOption_asTruth c origin
  | level | fileName => exact toOption_asText c origin
  | format | logDir => cases c <;> rfl

theorem read_of_ofScalar? {c : Scalar} {v : x.Value} (h : x.ofScalar? c = some v) (origin : Option String) :
    x.read (.scalar c origin) = .ok v := by
  rw [← toOption_read x c origin] at h
  cases hr : x.read (.scalar c origin) with
  | error e => rw [hr] at h; cases h
  | ok w => rw [hr] at h; cases h; rfl

/-! ## What the environment gives -/

/-- What a variable gives for a setting. -/
def given? (x : Setting) (e : String × String) : Option String :=
  if (variablePath? e.1).map pathOf = some x.steps then some e.2 else none

/-- What the variables are as layers. -/
def environmentLayers (env : List (String × String)) : List (List Step × Tree) :=
  env.filterMap fun e => (variablePath? e.1).map fun path =>
    (pathOf path, .scalar (scalarOf e.2) (some environmentName))

theorem overlayEnvironment_eq (env : List (String × String)) (t : Tree) :
    overlayEnvironment env t = lay (environmentLayers env) t := by
  unfold overlayEnvironment lay environmentLayers
  rw [List.foldl_filterMap]
  congr 1
  funext t ⟨name, value⟩
  dsimp only
  cases variablePath? name <;> rfl

theorem brings?_environmentLayers (env : List (String × String)) (x : Setting) :
    (environmentLayers env).filterMap x.brings? =
      (env.filterMap x.given?).map fun v => .scalar (scalarOf v) (some environmentName) := by
  unfold environmentLayers
  rw [List.filterMap_filterMap, List.map_filterMap]
  congr 1
  funext e
  unfold brings? given?
  cases variablePath? e.1 with
  | none => rfl
  | some path =>
    simp only [Option.map_some, Option.bind_some, Option.some.injEq]
    split
    · rfl
    · split <;> rfl

/-- The variable belongs to no setting, or gives a text that means something for the one to which it belongs. -/
def Meant (e : String × String) : Prop := ∀ path, variablePath? e.1 = some path →
  Outside (pathOf path) ∨ ∃ x : Setting, pathOf path = x.steps ∧ (x.ofScalar? (scalarOf e.2)).isSome

theorem fits_environmentLayers {env : List (String × String)} (henv : ∀ e ∈ env, Meant e) :
    ∀ p ∈ environmentLayers env, Fits p := by
  intro p hp
  obtain ⟨e, he, hp⟩ := List.mem_filterMap.1 hp
  obtain ⟨path, hpath, rfl⟩ := Option.map_eq_some_iff.1 hp
  rcases henv e he path hpath with houtside | ⟨x, hx, -⟩
  · exact .outside houtside _
  · rw [hx]
    exact .value x _ _

/-! ## What a file gives -/

/-- What an entry of a file holds for a setting: under the key of its table, or under its whole path. -/
def held? (x : Setting) (e : String × Document) : Option Document :=
  if pathOf e.1 = x.steps then some e.2
  else if pathOf e.1 = [.key x.part] then
    match e.2 with
    | .table es => lastAt x.key es
    | _ => none
  else none

/-- What a document means for a setting, if it has no parts. -/
def ofDocument? (x : Setting) (d : Document) : Option x.Value :=
  match Tree.ofDocument none d with
  | .scalar c _ => x.ofScalar? c
  | _ => none

/-- What the entries of a file are as layers. -/
def fileLayers (name : String) (file : List (String × Document)) : List (List Step × Tree) :=
  file.map fun e => (pathOf e.1, Tree.ofDocument (some name) e.2)

theorem ofEntries_eq (origin : Option String) : ∀ es : List (String × Document),
    Tree.ofEntries origin es = es.map fun e => (e.1, Tree.ofDocument origin e.2)
  | [] => by rw [Tree.ofEntries, List.map_nil]
  | (n, d) :: rest => by rw [Tree.ofEntries, ofEntries_eq origin rest, List.map_cons]

theorem lastAt_ofEntries (origin : Option String) (k : String) (es : List (String × Document)) :
    lastAt k (Tree.ofEntries origin es) = (lastAt k es).map (Tree.ofDocument origin) := by
  unfold lastAt
  rw [ofEntries_eq, List.filterMap_map, ← List.getLast?_map, List.map_filterMap]
  congr 2
  funext e
  simp only [Function.comp_apply]
  split <;> rfl

theorem brings?_ofDocument (x : Setting) (origin : Option String) (key : String) (d : Document) :
    x.brings? (pathOf key, Tree.ofDocument origin d) = (x.held? (key, d)).map (Tree.ofDocument origin) := by
  unfold brings? held?
  dsimp only
  split
  · rfl
  · split
    · cases d with
      | table es => exact lastAt_ofEntries origin x.key es
      | null | bool | int | float | text | list => rfl
    · rfl

theorem brings?_fileLayers (name : String) (file : List (String × Document)) (x : Setting) :
    (fileLayers name file).filterMap x.brings? = (file.filterMap x.held?).map (Tree.ofDocument (some name)) := by
  unfold fileLayers
  rw [List.filterMap_map, List.map_filterMap]
  congr 1
  funext e
  exact brings?_ofDocument x (some name) e.1 e.2

/-- An entry of a file has nothing to do with the settings, or means something for each for which it holds something. -/
inductive Holds : String × Document → Prop
  | outside {key : String} (h : Outside (pathOf key)) (d : Document) : Holds (key, d)
  | value {key : String} {d : Document} (x : Setting) (h : pathOf key = x.steps) (hd : (x.ofDocument? d).isSome) :
    Holds (key, d)
  | table {key : String} {es : List (String × Document)} (x : Setting) (h : pathOf key = [.key x.part])
    (hes : ∀ y : Setting, y.part = x.part → ∀ e ∈ es, e.1 = y.key → (y.ofDocument? e.2).isSome) : Holds (key, .table es)

theorem scalar_of_ofDocument? {d : Document} (h : (x.ofDocument? d).isSome) :
    ∃ c, (∀ origin, Tree.ofDocument origin d = .scalar c origin) ∧ x.ofDocument? d = x.ofScalar? c := by
  cases d with
  | list | table => cases h
  | null | bool | int | float | text => exact ⟨_, fun _ => rfl, rfl⟩

theorem not_outside_steps (x : Setting) : ¬Outside x.steps := by
  rintro ⟨name, rest, hpath, hname⟩
  exact hname x (Step.key.inj (List.cons.inj hpath).1)

theorem not_outside_part (x : Setting) : ¬Outside [.key x.part] := by
  rintro ⟨name, rest, hpath, hname⟩
  exact hname x (Step.key.inj (List.cons.inj hpath).1)

/-- What an entry holds for a setting means something for it. -/
theorem Holds.isSome_of_held? {e : String × Document} {d : Document} (h : Holds e) (hd : x.held? e = some d) :
    (x.ofDocument? d).isSome := by
  unfold held? at hd
  -- Only an entry that leads to the setting, or to its section, holds something for it.
  cases h with
  | @outside key h d' =>
    rw [if_neg fun hpath : pathOf key = x.steps => not_outside_steps x (hpath ▸ h),
      if_neg fun hpath : pathOf key = [.key x.part] => not_outside_part x (hpath ▸ h)] at hd
    cases hd
  | @value key d' y h hd' =>
    dsimp only at hd
    rw [h, if_neg (steps_ne y x.part)] at hd
    split at hd
    · rename_i hsteps
      cases hd
      exact steps_injective hsteps ▸ hd'
    · cases hd
  | @table key es y h hes =>
    dsimp only at hd
    rw [h, if_neg (steps_ne x y.part).symm] at hd
    split at hd
    · rename_i hpart
      exact hes x (Step.key.inj (List.cons.inj hpart).1).symm _ (Document.mem_of_lastAt hd) rfl
    · cases hd

theorem Holds.fits {e : String × Document} (h : Holds e) (origin : Option String) :
    Fits (pathOf e.1, Tree.ofDocument origin e.2) := by
  cases h with
  | outside h d => exact .outside h _
  | value x h hd =>
    obtain ⟨c, hc, -⟩ := scalar_of_ofDocument? hd
    rw [h, hc]
    exact .value x c origin
  | table x h hes =>
    rw [h, Tree.ofDocument, ofEntries_eq]
    refine .table x origin fun y hy e he hkey => ?_
    obtain ⟨e', he', rfl⟩ := List.mem_map.1 he
    obtain ⟨c, hc, -⟩ := scalar_of_ofDocument? (hes y hy e' he' hkey)
    exact ⟨c, origin, hc origin⟩

/-! ## Defaults -/

/-- What a setting has if nothing is given for it. -/
def default (x : Setting) : x.Value := x.get {}

theorem pathOf_path (x : Setting) : pathOf x.path = x.steps := by cases x <;> decide +kernel

theorem variablePath?_variableName (x : Setting) : variablePath? x.variableName = some x.path := by
  cases x <;> decide +kernel

theorem pathOf_part (x : Setting) : pathOf x.part = [.key x.part] := by cases x <;> decide +kernel

theorem meant_variable {v : String} (h : (x.ofScalar? (scalarOf v)).isSome) : Meant (x.variableName, v) := by
  intro path hpath
  cases hpath.symm.trans (variablePath?_variableName x)
  exact .inr ⟨x, pathOf_path x, h⟩

theorem meant_of_not_prefixed {name : String} (h : variablePath? name = none) (v : String) : Meant (name, v) :=
  fun _ hpath => nomatch h.symm.trans hpath

theorem holds_part {es : List (String × Document)}
    (hes : ∀ y : Setting, y.part = x.part → ∀ e ∈ es, e.1 = y.key → (y.ofDocument? e.2).isSome) :
    Holds (x.part, .table es) := .table x (pathOf_part x) hes

theorem defaults_eq : defaults = Tree.overlayAt (.scalar (.int 1000) none) interval.steps .emptyTable := by
  rw [defaults, show "notifier.interval_ms" = interval.path by decide +kernel, pathOf_path]

theorem settled_defaults : Settled defaults := by
  rw [defaults_eq]
  exact (Fits.value interval (.int 1000) none).settled ⟨Tree.ordered_emptyTable, rfl, nofun⟩

/-- The layer of defaults says what the default is where it says anything. -/
theorem find?_defaults (x : Setting) :
    x.find? defaults = none ∨
      ∃ c origin, x.find? defaults = some (.scalar c origin) ∧ x.ofScalar? c = some x.default := by
  rw [defaults_eq, find?_overlayAt_steps]
  split
  · rename_i hx
    subst hx
    exact .inr ⟨_, _, rfl, rfl⟩
  · exact .inl rfl

/-! ## All together -/

/-- The entries of the file that the path means; none if there is no path. -/
def Contents (files : List (String × String)) (path : Option String) (file : List (String × Document)) : Prop :=
  match path with
  | none => file = []
  | some path => ∃ name format text, resolve files path = .ok (name, format, text) ∧
      format.parse? (withoutMark text) = some (.table file)

theorem layers_eq (env : List (String × String)) (hfile : Contents files path file) :
    ∃ name, layers env files path = .ok (lay (environmentLayers env) (lay (fileLayers name file) defaults)) := by
  cases path with
  | none =>
    cases hfile
    refine ⟨"", ?_⟩
    rw [← overlayEnvironment_eq, layers, fileLayers, List.map_nil, lay.eq_1 [], List.foldl_nil]
    rfl
  | some path =>
    obtain ⟨name, format, text, hresolve, hparse⟩ := hfile
    refine ⟨name, ?_⟩
    rw [← overlayEnvironment_eq, layers, overlayFile, hresolve]
    simp only [bind, Except.bind, hparse, pure, Except.pure]
    rw [lay, fileLayers, List.foldl_map]

/-- What the environment gives for a setting: the last of its variables counts. -/
def inEnvironment? (x : Setting) (env : List (String × String)) : Option x.Value :=
  (env.filterMap x.given?).getLast?.bind fun v => x.ofScalar? (scalarOf v)

/-- What the file gives for a setting. -/
def inFile? (x : Setting) (file : List (String × Document)) : Option x.Value :=
  (file.filterMap x.held?).getLast?.bind x.ofDocument?

/-- What a setting has: what the environment gives, else what the file gives, else its default. -/
def settle (x : Setting) (env : List (String × String)) (file : List (String × Document)) : x.Value :=
  ((x.inEnvironment? env).or (x.inFile? file)).getD x.default

theorem isSome_of_given? {e : String × String} {v : String} (he : Meant e) (hv : x.given? e = some v) :
    (x.ofScalar? (scalarOf v)).isSome := by
  unfold given? at hv
  split at hv
  · rename_i hpath
    cases hv
    obtain ⟨path, hname, hsteps⟩ := Option.map_eq_some_iff.1 hpath
    rcases he path hname with h | ⟨y, hy, hmeans⟩
    · exact absurd (hsteps ▸ h) (not_outside_steps x)
    · exact steps_injective (hsteps.symm.trans hy) ▸ hmeans
  · cases hv

/-- What the layers come to: nothing at the place of a setting that has its default, else a value that means what the
setting has. -/
theorem find?_layers (name : String) (hfile : ∀ e ∈ file, Holds e) (henv : ∀ e ∈ env, Meant e) :
    let t := lay (environmentLayers env) (lay (fileLayers name file) defaults)
    Settled t ∧ ∀ x : Setting, (x.find? t = none ∧ x.settle env file = x.default) ∨
      ∃ c origin, x.find? t = some (.scalar c origin) ∧ x.ofScalar? c = some (x.settle env file) := by
  have hfits : ∀ p ∈ fileLayers name file, Fits p := fun p hp => by
    obtain ⟨e, he, rfl⟩ := List.mem_map.1 hp
    exact (hfile e he).fits _
  obtain ⟨hsettled, hbelow⟩ := find?_lay hfits settled_defaults
  obtain ⟨hsettled', habove⟩ := find?_lay (fits_environmentLayers henv) hsettled
  refine ⟨hsettled', fun x => ?_⟩
  rw [habove, hbelow, brings?_environmentLayers, brings?_fileLayers, List.getLast?_map, List.getLast?_map]
  unfold settle inEnvironment? inFile?
  -- The environment is asked first, then the file, and the default is left.
  cases hv : (env.filterMap x.given?).getLast? with
  | some v =>
    obtain ⟨e, he, hgiven⟩ := List.mem_filterMap.1 (List.mem_of_getLast? hv)
    obtain ⟨w, hw⟩ := Option.isSome_iff_exists.1 (isSome_of_given? (henv e he) hgiven)
    exact .inr ⟨scalarOf v, some environmentName, rfl, by simp [hw]⟩
  | none =>
    cases hd : (file.filterMap x.held?).getLast? with
    | some d =>
      obtain ⟨e, he, hheld⟩ := List.mem_filterMap.1 (List.mem_of_getLast? hd)
      have hmeans := (hfile e he).isSome_of_held? hheld
      obtain ⟨c, hc, hvalue⟩ := scalar_of_ofDocument? hmeans
      obtain ⟨w, hw⟩ := Option.isSome_iff_exists.1 hmeans
      exact .inr ⟨c, some name, by simp [hc], by simp [hw, ← hvalue]⟩
    | none =>
      rcases find?_defaults x with h | ⟨c, origin, h, hdefault⟩
      · exact .inl ⟨by simp [h], by simp⟩
      · exact .inr ⟨c, origin, by simp [h], by simp [hdefault]⟩

/-- Every setting has what the environment gives for it, else what the file gives, else its default, whatever is given
for the others and besides; the settings are refused if and only if that leaves no time between the ticks. -/
theorem load_layered (hcontents : Contents files path file) (hfile : ∀ e ∈ file, Holds e) (henv : ∀ e ∈ env, Meant e) :
    ∃ s : Record, (∀ x : Setting, x.get s = x.settle env file) ∧
      load env files path =
        if interval.settle env file = 0 then .error (.invalid "notifier.interval_ms" "must be greater than zero")
        else .ok s := by
  obtain ⟨name, hlayers⟩ := layers_eq env hcontents
  obtain ⟨hsettled, hfind⟩ := find?_layers name hfile henv
  -- Each setting is found with a meaning or not at all, so reading does not fail.
  obtain ⟨s, hs⟩ := exists_read hsettled.ordered hsettled.root hsettled.sections (fun x u hu => by
    rcases hfind x with ⟨h, -⟩ | ⟨c, origin, h, hmeans⟩
    · cases hu.symm.trans h
    · cases hu.symm.trans h
      exact ⟨_, read_of_ofScalar? hmeans origin⟩) {}
  -- What has been read is what each setting settles on, whatever the others do.
  have hget : ∀ x : Setting, x.get s = x.settle env file := by
    intro x
    obtain ⟨habsent, hpresent⟩ := get_of_read hsettled.ordered hsettled.root (hsettled.sections x) hs
    rcases hfind x with ⟨h, hdefault⟩ | ⟨c, origin, h, hmeans⟩
    · rw [habsent h, hdefault, default]
    · have hread := (hpresent _ h).symm.trans (read_of_ofScalar? hmeans origin)
      exact Except.ok.inj hread
  refine ⟨s, hget, ?_⟩
  rw [← hget interval, load, hlayers]
  simp only [hs]
  rfl

/-- A file that fills both sections in part, and a variable for a setting that the file gives as well. -/
theorem load_layered_partly :
    ∃ s : Record, s.notifier.intervalMs = 250 ∧ s.logging.level = "warn" ∧ s.logging.withAnsi = false ∧
      s.logging.withTarget = true ∧
      load [(level.variableName, "warn"), ("HOME", "7")]
        [("s.ini", "[notifier]\ninterval_ms=250\n[logging]\nlevel=debug\nwith_ansi=off\n")] (some "s.ini") = .ok s := by
  have hparts : Location.parts "s.ini" = ["s.ini"] := by
    rw [Location.parts, String.splitOn, if_neg (by decide)]
    iterate 5 rw [String.splitOnAux, if_neg (by decide +kernel), if_neg (by decide +kernel)]
    rw [String.splitOnAux, if_pos (by decide +kernel)]
    decide +kernel
  have hresolve : ∀ text, resolve [("s.ini", text)] "s.ini" = .ok ("s.ini", .ini, text) := fun text => by
    have hplain : Location.plain "s.ini" = "s.ini" := by rw [Location.plain, hparts]; decide +kernel
    have hend : "s.ini".endsWith "/" = false := by decide +kernel
    have hformat : FileFormat.ofExtension? (extensionOf (["s.ini"].getLastD "")) = some .ini := by decide +kernel
    simp only [resolve, hplain, hend, hparts, fileText?, List.find?, decide_true, Option.map_some, Bool.false_eq_true,
      if_false, hformat]
  -- The file is found, and its lines make two sections.
  have hlines : Reader.readAll? Document.Ini.lines
      (withoutMark "[notifier]\ninterval_ms=250\n[logging]\nlevel=debug\nwith_ansi=off\n").toList =
        some [.section "notifier", .entry "interval_ms" "250", .section "logging", .entry "level" "debug",
          .entry "with_ansi" "off"] := by
    decide +kernel
  have hcontents : Contents [("s.ini", "[notifier]\ninterval_ms=250\n[logging]\nlevel=debug\nwith_ansi=off\n")]
      (some "s.ini") [("logging", .table [("level", .text "debug"), ("with_ansi", .text "off")]),
        ("notifier", .table [("interval_ms", .text "250")])] := by
    refine ⟨_, _, _, hresolve _, ?_⟩
    rw [FileFormat.parse?, Document.Ini.parse?, hlines]
    rfl
  -- Each key of a section has a meaning for the setting that it names.
  have hlogging : ∀ y : Setting, y.part = level.part →
      ∀ e ∈ [("level", Document.text "debug"), ("with_ansi", .text "off")], e.1 = y.key →
        (y.ofDocument? e.2).isSome := by
    intro y hy e he hkey
    rcases List.mem_pair.1 he with rfl | rfl
    · rw [eq_of_place (y := level) hy hkey.symm]
      rfl
    · rw [eq_of_place (y := withAnsi) hy hkey.symm]
      decide +kernel
  have hnotifier : ∀ y : Setting, y.part = interval.part →
      ∀ e ∈ [("interval_ms", Document.text "250")], e.1 = y.key → (y.ofDocument? e.2).isSome := by
    intro y hy e he hkey
    cases List.mem_singleton.1 he
    rw [eq_of_place (y := interval) hy hkey.symm]
    decide +kernel
  obtain ⟨s, hget, hload⟩ := load_layered hcontents
    (List.forall_mem_cons.2 ⟨holds_part hlogging, List.forall_mem_singleton.2 (holds_part hnotifier)⟩)
    (List.forall_mem_cons.2
      ⟨meant_variable (x := level) (v := "warn") (by decide +kernel),
        List.forall_mem_singleton.2 (meant_of_not_prefixed (show variablePath? "HOME" = none by decide +kernel) "7")⟩)
  refine ⟨s, (hget interval).trans ?_, (hget level).trans ?_, (hget withAnsi).trans ?_, (hget withTarget).trans ?_,
    hload.trans (if_neg ?_)⟩
  all_goals decide +kernel

end Setting

end Conduit.Settings
