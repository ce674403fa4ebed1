/-
What comes of the texts that the environment gives for settings that are texts. A text that reads as a truth value or
as a number is taken for one and written out again, so it arrives as it was given if and only if it is what such a value
is written as, or reads as none. Counts, truth values and formats that are written out come back as they were.
-/
import Conduit.Proofs.Binary64.Text
import Conduit.Proofs.Settings.Precedence

namespace Conduit.Settings

open Conduit.Settings.Tree (Step)

variable {v : String} {c : Scalar} {origin : Option String}

/-! ## Texts that stand for themselves -/

/-- The text is what a truth value or a number is written as, or it reads as neither of them. -/
inductive StandsForItself : String → Prop
  | truth (b : Bool) : StandsForItself (Text.truth b)
  | integer {i : Int} (hi : Numeral.fitsSigned i) : StandsForItself (toString i)
  | number {x : Binary64} (hx : x.Proper) (hzero : x ≠ .zero true) : StandsForItself x.text
  | word {v : String} (htruth : ∀ b, Text.lowercase v ≠ Text.truth b) (hnumeral : ¬Binary64.IsNumeral v) :
    StandsForItself v

theorem lowercaseOf_eq {c : Char} (hc : c.isDigit ∨ c = '-') : Text.lowercaseOf c = [c] := by
  rcases hc with hc | rfl
  · have hle : c.toNat ≤ '9'.toNat := UInt32.le_iff_toNat_le.1 (of_decide_eq_true (Bool.and_eq_true_iff.1 hc).2)
    unfold Text.lowercaseOf
    rw [if_pos (lt_of_le_of_lt hle (by decide)), Binary64.toLower_of_isDigit hc]
  · decide

theorem lowercase_ne_truth (h : ∃ c rest, v.toList = c :: rest ∧ (c.isDigit ∨ c = '-')) (b : Bool) :
    Text.lowercase v ≠ Text.truth b := by
  obtain ⟨c, rest, hv, hc⟩ := h
  intro heq
  have hhead : (Text.lowercase v).toList.head? = some c := by
    have hsigma : c ≠ 'Σ' := by
      rintro rfl
      revert hc
      decide
    rw [Text.lowercase, String.toList_ofList, hv, Text.lowercaseAfter, if_neg hsigma, lowercaseOf_eq hc]
    rfl
  rw [heq] at hhead
  cases b <;> cases hhead <;> revert hc <;> decide

theorem text_ne_truth (x : Binary64) (b : Bool) : Text.lowercase x.text ≠ Text.truth b := by
  cases x with
  | nan => cases b <;> decide +kernel
  | infinite negative => cases negative <;> cases b <;> decide +kernel
  | finite negative m e => exact lowercase_ne_truth (Binary64.head_text_finite negative m e) b

theorem signed64?_eq_some {i : Int} :
    signed64? v = some i ↔ Numeral.integer? v.toList = some i ∧ Numeral.fitsSigned i = true := by
  unfold signed64?
  rw [Option.bind_eq_some_iff]
  constructor
  · rintro ⟨j, hj, hfits⟩
    split_ifs at hfits with h
    cases hfits
    exact ⟨hj, h⟩
  · rintro ⟨hi, hfits⟩
    exact ⟨i, hi, if_pos hfits⟩

theorem scalarOf_of_ne_truth (h : ∀ b, Text.lowercase v ≠ Text.truth b) : scalarOf v =
    match signed64? v with
    | some i => .int i
    | none =>
      match Binary64.ofText? v with
      | some x => .float x
      | none => .text v := by
  have htrue : Text.lowercase v ≠ "true" := h true
  have hfalse : Text.lowercase v ≠ "false" := h false
  exact (if_neg htrue).trans (if_neg hfalse)

theorem scalarOf_truth (b : Bool) : scalarOf (Text.truth b) = .bool b := by cases b <;> decide +kernel

theorem scalarOf_toString {i : Int} (hi : Numeral.fitsSigned i) : scalarOf (toString i) = .int i := by
  rw [scalarOf_of_ne_truth (lowercase_ne_truth (Numeral.head_toString i)),
    signed64?_eq_some.2 ⟨Numeral.integer?_toString i, hi⟩]

/-- A text that stands for itself is written out again as it was. -/
theorem StandsForItself.asText (h : StandsForItself v) (origin : Option String) :
    (Tree.scalar (scalarOf v) origin).asText = .ok v := by
  cases h with
  | truth b =>
    rw [scalarOf_truth]
    rfl
  | integer hi =>
    rw [scalarOf_toString hi]
    rfl
  | @number x hx hzero =>
    rw [scalarOf_of_ne_truth (text_ne_truth x)]
    -- Such a text may read as an integer, and that is written as the number is.
    cases hi : signed64? x.text with
    | some i => exact congrArg Except.ok (Binary64.toString_of_integer? hx hzero (signed64?_eq_some.1 hi).1)
    | none =>
      rw [Binary64.ofText?_text hx]
      rfl
  | word htruth hnumeral =>
    have hinteger : signed64? v = none := Option.eq_none_iff_forall_ne_some.2 fun i hi =>
      hnumeral (Binary64.isNumeral_of_integer? (signed64?_eq_some.1 hi).1)
    have hnumber : Binary64.ofText? v = none :=
      Option.not_isSome_iff_eq_none.1 fun h => hnumeral (Binary64.ofText?_isSome_iff.1 h)
    rw [scalarOf_of_ne_truth htruth, hinteger, hnumber]
    rfl

/-- A text is written out again as it was if and only if it stands for itself. -/
theorem asText_scalarOf_iff (v : String) (origin : Option String) :
    (Tree.scalar (scalarOf v) origin).asText = .ok v ↔ StandsForItself v := by
  refine ⟨fun h => ?_, fun h => h.asText origin⟩
  by_cases htrue : Text.lowercase v = "true"
  · rw [scalarOf, if_pos htrue] at h
    cases h
    exact .truth true
  by_cases hfalse : Text.lowercase v = "false"
  · rw [scalarOf, if_neg htrue, if_pos hfalse] at h
    cases h
    exact .truth false
  have htruth : ∀ b, Text.lowercase v ≠ Text.truth b := fun b => by cases b <;> assumption
  rw [scalarOf_of_ne_truth htruth] at h
  cases hi : signed64? v with
  | some i =>
    rw [hi] at h
    cases h
    exact .integer (signed64?_eq_some.1 hi).2
  | none =>
    rw [hi] at h
    cases hx : Binary64.ofText? v with
    | some x =>
      rw [hx] at h
      cases h
      refine .number (Binary64.proper_ofText? hx) ?_
      -- the text of negative zero reads as an integer
      rintro rfl
      revert hi
      decide +kernel
    | none => exact .word htruth fun hn => by rw [← Binary64.ofText?_isSome_iff, hx] at hn; cases hn

/-- A text that begins like no number stands for itself, unless it is a truth word or the name of a special number. -/
theorem standsForItself_of_head {c : Char} {rest : List Char} (hv : v.toList = c :: rest)
    (hc : ¬c.isDigit ∧ c ≠ '.' ∧ c ≠ '-' ∧ c ≠ '+') (htruth : ∀ b, Text.lowercase v ≠ Text.truth b)
    (hname : String.ofList (v.toList.map Char.toLower) ∉ ["inf", "infinity", "nan"]) : StandsForItself v := by
  obtain ⟨hdigit, hpoint, hminus, hplus⟩ := hc
  refine .word htruth ?_
  rintro (h | h)
  · rw [hv, Binary64.signed_of_ne hminus hplus, ← hv] at h
    exact hname h
  · rw [hv, Binary64.signed_of_ne hminus hplus] at h
    obtain ⟨c', rest', heq, hc'⟩ := h.head
    cases heq
    exact hc'.elim hdigit hpoint

theorem scalarOf_ne_null (v : String) : scalarOf v ≠ .null := by
  unfold scalarOf
  dsimp only
  split_ifs
  · nofun
  · nofun
  · cases signed64? v with
    | some i => nofun
    | none => cases Binary64.ofText? v <;> nofun

/-! ## Paths -/

theorem exists_key_of_pathOf (s : String) : ∃ name rest, pathOf s = .key name :: rest := by
  unfold pathOf
  cases h : Reader.readAll? Path.path s.toList with
  | none => exact ⟨s, [], rfl⟩
  | some p =>
    unfold Reader.readAll? Path.path Path.name at h
    dsimp only [bind, pure] at h
    delta StateT.bind StateT.pure at h
    dsimp only [bind] at h
    split at h
    · rename_i hread
      cases h
      simp only [Option.bind_eq_some_iff] at hread
      obtain ⟨_, ⟨_, ⟨_, _, hfirst⟩, _, _, hpath⟩, _, _, hresult⟩ := hread
      cases hfirst
      cases hpath
      cases hresult
      exact ⟨_, _, rfl⟩
    · cases h

namespace Tree

variable {layer t : Tree}

theorem overlayAt_ne_scalar {path : List Step} (hpath : path ≠ []) (layer t : Tree) :
    ¬(overlayAt layer path t).IsScalar := by
  rintro ⟨c, origin, h⟩
  cases path with
  | nil => exact hpath rfl
  | cons step rest =>
    cases step with
    | key name =>
      rw [overlayAt] at h
      cases h
    | index i => exact Tree.noConfusion (show Tree.list _ _ = .scalar c origin from h)

theorem Ordered.lay : ∀ (layers : List (List Step × Tree)) {t : Tree}, t.Ordered → (lay layers t).Ordered
  | [], _, ht => ht
  | p :: rest, _, ht => Ordered.lay rest (ht.overlayAt p.2 p.1)

end Tree

namespace Setting

variable {x : Setting} {t u : Tree} {s : Record} {env files : List (String × String)} {file : Option String}

/-! ## Settings that are texts -/

/-- The setting is a text. -/
def IsText (x : Setting) : Prop := x = level ∨ x = logDir ∨ x = fileName

/-- The text that a record has for a setting. -/
def textOf? : Setting → Record → Option String
  | level, s => some s.logging.level
  | logDir, s => s.logging.logDir
  | fileName, s => some s.logging.fileName
  | _, _ => none

theorem readPath_of_ne_null (hnull : ∀ origin, u ≠ .scalar .null origin) : readPath u = u.asText.map some := by
  unfold readPath
  split
  · exact absurd rfl (hnull _)
  · rfl

theorem textOf?_of_read (hx : x.IsText) (hnull : ∀ origin, u ≠ .scalar .null origin) (h : x.read u = .ok (x.get s)) :
    ∃ w, u.asText = .ok w ∧ x.textOf? s = some w := by
  rcases hx with rfl | rfl | rfl
  · exact ⟨_, h, rfl⟩
  · rw [read, readPath_of_ne_null hnull] at h
    cases ht : u.asText with
    | error e => rw [ht] at h; cases h
    | ok w => rw [ht] at h; exact ⟨w, rfl, (Except.ok.inj h).symm⟩
  · exact ⟨_, h, rfl⟩

theorem isScalar_of_asText {w : String} (h : u.asText = .ok w) : u.IsScalar := by
  cases u with
  | scalar c origin => exact ⟨c, origin, rfl⟩
  | list | table => cases h

/-! ## What the environment leaves in place -/

/-- A value at the end of the path takes the place of the setting, or of the section that holds it. -/
def Takes (x : Setting) (path : List Step) : Prop :=
  path <+: x.steps ∨ ∃ i rest, path = .key x.part :: .index i :: rest

/-- The environment gives a text for the setting, and no later variable takes its place. -/
def Gives (env : List (String × String)) (x : Setting) (v : String) : Prop := ∃ before name after,
  env = before ++ (name, v) :: after ∧ (variablePath? name).map pathOf = some x.steps ∧
    ∀ e ∈ after, ∀ path, variablePath? e.1 = some path → ¬x.Takes (pathOf path)

/-- At the place of the setting stands the value, or something with parts. -/
structure Held (x : Setting) (c : Scalar) (t : Tree) : Prop where
  ordered : t.Ordered
  root : t.isTable = true
  table : ∃ w, t.get? x.part = some w ∧ w.isTable = true
  found : ∃ u, x.find? t = some u ∧ ∀ c' origin, u = .scalar c' origin → c' = c

theorem held_overlayAt (x : Setting) (c : Scalar) (origin : Option String) (ht : t.Ordered) :
    x.Held c (Tree.overlayAt (.scalar c origin) x.steps t) where
  ordered := ht.overlayAt ..
  root := Tree.isTable_overlayAt ..
  table := by
    rw [steps, Tree.get?_overlayAt, if_pos rfl]
    exact ⟨_, rfl, Tree.isTable_overlayAt ..⟩
  found := by
    rw [find?_overlayAt_steps, if_pos rfl]
    exact ⟨_, rfl, fun c' origin' h => by cases h; rfl⟩

theorem Held.overlayAt {c : Scalar} (h : x.Held c t) {name : String} {rest : List Step}
    (hfree : ¬x.Takes (.key name :: rest))
    (layer : Tree) : x.Held c (Tree.overlayAt layer (.key name :: rest) t) := by
  obtain ⟨w, hw, htable⟩ := h.table
  by_cases hname : name = x.part
  · -- the path leads into the section, to another of its keys or beyond the setting
    subst hname
    obtain ⟨key, rest, rfl⟩ : ∃ key rest', rest = .key key :: rest' := by
      cases rest with
      | nil => exact absurd (.inl ⟨[.key x.key], rfl⟩) hfree
      | cons step rest =>
        cases step with
        | key key => exact ⟨key, rest, rfl⟩
        | index i => exact absurd (.inr ⟨i, rest, rfl⟩) hfree
    refine ⟨h.ordered.overlayAt .., Tree.isTable_overlayAt .., ?_, ?_⟩
    · rw [Tree.get?_overlayAt, if_pos rfl]
      exact ⟨_, rfl, Tree.isTable_overlayAt ..⟩
    · rw [find?_overlayAt, if_pos rfl, Tree.get?_overlayAt]
      split_ifs with hkey
      · subst hkey
        have hrest : rest ≠ [] := fun hnil => hfree (.inl (by rw [hnil, steps]))
        exact ⟨_, rfl, fun c' origin heq => absurd ⟨c', origin, heq⟩ (Tree.overlayAt_ne_scalar hrest layer _)⟩
      · exact h.found
  · refine ⟨h.ordered.overlayAt .., Tree.isTable_overlayAt .., ?_, ?_⟩
    · rw [Tree.get?_overlayAt, if_neg hname]
      exact ⟨w, hw, htable⟩
    · rw [find?_overlayAt, if_neg hname]
      exact h.found

theorem Held.lay {c : Scalar} : ∀ {layers : List (List Step × Tree)} {t : Tree}, x.Held c t →
    (∀ p ∈ layers, ∃ name rest, p.1 = .key name :: rest ∧ ¬x.Takes p.1) → x.Held c (lay layers t)
  | [], _, h, _ => h
  | p :: layers, t, h, hfree => by
    obtain ⟨name, rest, hp, htakes⟩ := hfree p (List.mem_cons_self ..)
    have hstep : x.Held c (Tree.overlayAt p.2 p.1 t) := by
      rw [hp] at htakes ⊢
      exact h.overlayAt htakes p.2
    exact hstep.lay fun q hq => hfree q (List.mem_cons_of_mem _ hq)

theorem ordered_overlayFile {path : String} {under : Tree} (ht : t.Ordered) (h : overlayFile files path t = .ok under) :
    under.Ordered := by
  unfold overlayFile at h
  cases hresolve : resolve files path with
  | error e =>
    rw [hresolve] at h
    cases h
  | ok found =>
    obtain ⟨name, format, text⟩ := found
    rw [hresolve] at h
    simp only [bind, Except.bind] at h
    split at h
    · rename_i entries _
      cases h
      have hlay := Tree.Ordered.lay (fileLayers name entries) ht
      rwa [lay, fileLayers, List.foldl_map] at hlay
    · cases h

/-- The environment is laid over a tree whose keys are in order. -/
theorem exists_lay_of_layers (h : layers env files file = .ok t) :
    ∃ under : Tree, under.Ordered ∧ t = lay (environmentLayers env) under := by
  obtain ⟨under, hunder, ht⟩ : ∃ under : Tree, under.Ordered ∧ overlayEnvironment env under = t := by
    unfold layers at h
    cases file with
    | none => exact ⟨defaults, settled_defaults.ordered, Except.ok.inj h⟩
    | some path =>
      cases hfile : overlayFile files path defaults with
      | error e =>
        simp only [hfile] at h
        cases h
      | ok under =>
        simp only [hfile] at h
        exact ⟨under, ordered_overlayFile settled_defaults.ordered hfile, Except.ok.inj h⟩
  exact ⟨under, hunder, by rw [← overlayEnvironment_eq, ht]⟩

/-- Where the environment gives a text for a setting, what this text stands for is held at its place. -/
theorem Gives.held (h : Gives env x v) (ht : t.Ordered) : x.Held (scalarOf v) (lay (environmentLayers env) t) := by
  obtain ⟨before, name, after, rfl, hname, hafter⟩ := h
  obtain ⟨path, hpath, hsteps⟩ := Option.map_eq_some_iff.1 hname
  have hlayers : environmentLayers (before ++ (name, v) :: after) =
      environmentLayers before ++ (x.steps, .scalar (scalarOf v) (some environmentName)) ::
        environmentLayers after := by
    unfold environmentLayers
    rw [List.filterMap_append, List.filterMap_cons_some (by rw [hpath, Option.map_some, hsteps])]
  rw [hlayers, lay, List.foldl_append, List.foldl_cons]
  refine (held_overlayAt x (scalarOf v) _ (Tree.Ordered.lay _ ht)).lay fun p hp => ?_
  obtain ⟨e, he, hp⟩ := List.mem_filterMap.1 hp
  obtain ⟨path', hpath', rfl⟩ := Option.map_eq_some_iff.1 hp
  obtain ⟨first, rest, hkey⟩ := exists_key_of_pathOf path'
  exact ⟨first, rest, hkey, hafter e he path' hpath'⟩

/-- What arrives is what the text from the environment stands for, written out. -/
theorem textOf?_of_gives (hx : x.IsText) (hgives : Gives env x v) (h : load env files file = .ok s) :
    ∃ origin w, (Tree.scalar (scalarOf v) origin).asText = .ok w ∧ x.textOf? s = some w := by
  unfold load at h
  split at h
  · cases h
  rename_i t ht
  split at h
  · cases h
  rename_i s' hread
  -- Validation refuses or passes the record on as it is.
  have hs : s' = s := by
    unfold Record.validate at h
    split_ifs at h
    exact Except.ok.inj h
  subst hs
  obtain ⟨under, hunder, rfl⟩ := exists_lay_of_layers ht
  -- The last layers leave what the variable has brought where it is.
  have hheld := hgives.held hunder
  obtain ⟨w, hw, htable⟩ := hheld.table
  obtain ⟨u, hu, hscalar⟩ := hheld.found
  have htabled : x.Tabled (lay (environmentLayers env) under) := fun w' hw' => by
    cases hw.symm.trans hw'
    exact htable
  obtain ⟨-, hpresent⟩ := get_of_read hheld.ordered hheld.root htabled hread
  have hnull : ∀ origin, u ≠ .scalar .null origin := fun origin hnull =>
    scalarOf_ne_null v (hscalar _ origin hnull).symm
  obtain ⟨text, htext, hof⟩ := textOf?_of_read hx hnull (hpresent u hu)
  obtain ⟨c, origin, rfl⟩ := isScalar_of_asText htext
  obtain rfl := hscalar c origin rfl
  exact ⟨origin, text, htext, hof⟩

/-- A text from the environment arrives as it was given if and only if it stands for itself. -/
theorem textOf?_eq_iff (hx : x.IsText) (hgives : Gives env x v) (h : load env files file = .ok s) :
    x.textOf? s = some v ↔ StandsForItself v := by
  obtain ⟨origin, w, hw, hof⟩ := textOf?_of_gives hx hgives h
  rw [hof, ← asText_scalarOf_iff v origin, hw, Option.some.injEq, Except.ok.injEq]

theorem gives_variable (x : Setting) (v : String) : Gives [(x.variableName, v)] x v :=
  ⟨[], _, [], rfl, by rw [variablePath?_variableName, Option.map_some, pathOf_path], nofun⟩

/-- A name that only looks like a number in part. -/
theorem textOf?_eq_iff_dated : ∃ s : Record, load [(logDir.variableName, "logs-2024.10")] [] none = .ok s ∧
    logDir.textOf? s = some "logs-2024.10" := by
  have hload : load [(logDir.variableName, "logs-2024.10")] [] none =
      .ok { logging := { logDir := some "logs-2024.10" } } := by decide +kernel
  have hword : StandsForItself "logs-2024.10" :=
    standsForItself_of_head rfl (by decide) (fun b => by cases b <;> decide +kernel) (by decide +kernel)
  exact ⟨_, hload, (textOf?_eq_iff (.inr (.inl rfl)) (gives_variable ..) hload).2 hword⟩

/-- A directory whose name is a year and a month loses the zero at its end. -/
theorem not_always_verbatim : ¬∀ (env files : List (String × String)) (file : Option String) (x : Setting) (v : String)
    (s : Record), x.IsText → Gives env x v → load env files file = .ok s → x.textOf? s = some v := by
  intro h
  have hload : load [(logDir.variableName, "2024.10")] [] none = .ok { logging := { logDir := some "2024.1" } } := by
    decide +kernel
  have htext := h _ [] none logDir "2024.10" _ (.inr (.inl rfl)) (gives_variable ..) hload
  exact absurd htext (by decide)

/-! ## Values that come back unchanged -/

/-- The text that a value is written as. -/
def written : (x : Setting) → x.Value → String
  | interval, n => toString n
  | level, v | fileName, v => v
  | format, f => f.text
  | withTarget, b | withThreadIds, b | withAnsi, b => Text.truth b
  | logDir, v => v.getD ""

/-- The value is a count that fits 64 bits with a sign, a text that stands for itself, a format or a truth value. -/
def Plain : (x : Setting) → x.Value → Prop
  | interval, n => Numeral.fitsSigned n
  | level, v | fileName, v => StandsForItself v
  | logDir, v => ∃ dir, v = some dir ∧ StandsForItself dir
  | format, _ | withTarget, _ | withThreadIds, _ | withAnsi, _ => True

theorem ofScalar?_written {a : x.Value} (h : x.Plain a) : x.ofScalar? (scalarOf (x.written a)) = some a := by
  -- Each kind of value is written in a text that reads as that kind.
  cases x with
  | interval =>
    have htext : interval.written a = toString (a : Int) := rfl
    have hfits : Numeral.fitsSigned (a : Int) := h
    have hcount : (Tree.scalar (.int (a : Int)) none).asCount = .ok a := by
      rw [Tree.asCount, if_pos (Int.natCast_nonneg a), Int.toNat_natCast]
    rw [htext, scalarOf_toString hfits]
    exact congrArg Except.toOption hcount
  | level | fileName => exact congrArg Except.toOption (StandsForItself.asText h none)
  | logDir =>
    obtain ⟨dir, rfl, hdir⟩ := h
    have hread : readPath (.scalar (scalarOf dir) none) = .ok (some dir) := by
      rw [readPath_of_ne_null fun origin hnull => scalarOf_ne_null dir (Tree.scalar.inj hnull).1, hdir.asText]
      rfl
    exact congrArg Except.toOption hread
  | format => cases a <;> decide +kernel
  | withTarget | withThreadIds | withAnsi =>
    have hread : (Tree.scalar (scalarOf (Text.truth a)) none).asTruth = .ok a := by
      rw [scalarOf_truth]
      rfl
    exact congrArg Except.toOption hread

/-- A variable with a plain value gives this value, whatever comes before it and whatever comes after it for others. -/
theorem inEnvironment?_written {a : x.Value} (h : x.Plain a) (before : List (String × String))
    {after : List (String × String)}
    (hafter : ∀ e ∈ after, x.given? e = none) :
    x.inEnvironment? (before ++ (x.variableName, x.written a) :: after) = some a := by
  have hgiven : x.given? (x.variableName, x.written a) = some (x.written a) := by
    unfold given?
    rw [variablePath?_variableName, Option.map_some, pathOf_path, if_pos rfl]
  unfold inEnvironment?
  rw [List.filterMap_append, List.filterMap_cons_some hgiven, List.filterMap_eq_nil_iff.2 hafter, List.getLast?_append]
  exact ofScalar?_written h

theorem meant_written {a : x.Value} (h : x.Plain a) : Meant (x.variableName, x.written a) :=
  meant_variable (Option.isSome_iff_exists.2 ⟨a, ofScalar?_written h⟩)

end Setting

end Conduit.Settings
