/-
The settings one by one: where each stands in a tree, what type its values have, and what a tree that stands there
means for it. The record that a tree is read to has for each setting what stands at its place, or its default.
-/
import Conduit.Proofs.Settings.Reading
import Conduit.Settings.Load

namespace Conduit.Settings

/-- A setting. -/
inductive Setting
  | interval
  | level
  | format
  | withTarget
  | withThreadIds
  | withAnsi
  | logDir
  | fileName
  deriving DecidableEq, Repr

namespace Setting

/-- The key of the table that the setting belongs to. -/
def part : Setting → String
  | interval => "notifier"
  | _ => "logging"

/-- The key of the setting in its table. -/
def key : Setting → String
  | interval => "interval_ms"
  | level => "level"
  | format => "format"
  | withTarget => "with_target"
  | withThreadIds => "with_thread_ids"
  | withAnsi => "with_ansi"
  | logDir => "log_dir"
  | fileName => "file_name"

/-- The way to the setting. -/
def steps (x : Setting) : List Tree.Step := [.key x.part, .key x.key]

/-- The way to the setting as a text. -/
def path (x : Setting) : String := x.part ++ "." ++ x.key

/-- The name of the variable of the setting. -/
def variableName : Setting → String
  | interval => "CHANLINK_NOTIFIER__INTERVAL_MS"
  | level => "CHANLINK_LOGGING__LEVEL"
  | format => "CHANLINK_LOGGING__FORMAT"
  | withTarget => "CHANLINK_LOGGING__WITH_TARGET"
  | withThreadIds => "CHANLINK_LOGGING__WITH_THREAD_IDS"
  | withAnsi => "CHANLINK_LOGGING__WITH_ANSI"
  | logDir => "CHANLINK_LOGGING__LOG_DIR"
  | fileName => "CHANLINK_LOGGING__FILE_NAME"

/-- The type of the values of a setting. -/
abbrev Value : Setting → Type
  | interval => Nat
  | level | fileName => String
  | format => Logging.Format
  | withTarget | withThreadIds | withAnsi => Bool
  | logDir => Option String

/-- What a record has for a setting. -/
def get : (x : Setting) → Record → x.Value
  | interval, s => s.notifier.intervalMs
  | level, s => s.logging.level
  | format, s => s.logging.format
  | withTarget, s => s.logging.withTarget
  | withThreadIds, s => s.logging.withThreadIds
  | withAnsi, s => s.logging.withAnsi
  | logDir, s => s.logging.logDir
  | fileName, s => s.logging.fileName

/-- Gives a record another value for a setting. -/
def set : (x : Setting) → x.Value → Record → Record
  | interval, v, s => { s with notifier := { intervalMs := v } }
  | level, v, s => { s with logging := { s.logging with level := v } }
  | format, v, s => { s with logging := { s.logging with format := v } }
  | withTarget, v, s => { s with logging := { s.logging with withTarget := v } }
  | withThreadIds, v, s => { s with logging := { s.logging with withThreadIds := v } }
  | withAnsi, v, s => { s with logging := { s.logging with withAnsi := v } }
  | logDir, v, s => { s with logging := { s.logging with logDir := v } }
  | fileName, v, s => { s with logging := { s.logging with fileName := v } }

theorem get_set (x : Setting) (v : x.Value) (s : Record) : x.get (x.set v s) = v := by
  cases x <;> rfl

theorem get_set_of_ne {x y : Setting} (h : x ≠ y) (v : y.Value) (s : Record) : x.get (y.set v s) = x.get s := by
  cases x <;> cases y <;> first | rfl | exact absurd rfl h

/-- The place of a setting is its own. -/
theorem eq_of_place {x y : Setting} (hpart : x.part = y.part) (hkey : x.key = y.key) : x = y := by
  revert hpart hkey
  cases x <;> cases y <;> decide

/-- The format of a word. -/
def formatOf? (word : String) : Option Logging.Format := (Logging.Format.all.find? (·.1 = word)).map (·.2)

/-- What formats are called as a kind. -/
def formatKind : String := "LogFormat"

/-- The format that a tree means. -/
def readFormat (t : Tree) : Except LoadFault Logging.Format :=
  (t.asChoice formatKind).bind fun name =>
    match formatOf? name with
    | some f => .ok f
    | none => .error (.message s!"enum {formatKind} does not have variant constructor {name}")

/-- The path that a tree means, if any. -/
def readPath : Tree → Except LoadFault (Option String)
  | .scalar .null _ => .ok none
  | t => t.asText.map some

/-- What a tree means for a setting. -/
def read : (x : Setting) → Tree → Except LoadFault x.Value
  | interval => Tree.asCount
  | level | fileName => Tree.asText
  | format => readFormat
  | withTarget | withThreadIds | withAnsi => Tree.asTruth
  | logDir => readPath

/-- The field of a setting. -/
def field : Setting → Field Record
  | interval => .count interval.set
  | level => .text level.set
  | format => .choice formatKind (Logging.Format.all.map fun (word, f) => (word, format.set f))
  | withTarget => .truth withTarget.set
  | withThreadIds => .truth withThreadIds.set
  | withAnsi => .truth withAnsi.set
  | logDir => .path logDir.set
  | fileName => .text fileName.set

/-- All settings. -/
def all : List Setting := [interval, level, format, withTarget, withThreadIds, withAnsi, logDir, fileName]

end Setting

/-- The fields of the table under a key. -/
def fieldsOf (part : String) : List (String × Field Record) :=
  (Setting.all.filter (·.part = part)).map fun x => (x.key, x.field)

/-- The schema of the settings is made of their fields. -/
theorem schema_eq : Record.schema = .record "Settings"
    [("notifier", .record "NotifierSettings" (fieldsOf "notifier")),
      ("logging", .record "LoggingConfig" (fieldsOf "logging"))] := by
  rfl

namespace Setting

variable {x y : Setting} {part name : String} {f : Field Record} {t u : Tree} {s s' : Record}

/-! ## Fields -/

theorem option?_formats (word : String) (put : Logging.Format → Record → Record) :
    Field.option? (Logging.Format.all.map fun (w, f) => (w, put f)) word = (formatOf? word).map put := by
  unfold Field.option? formatOf?
  rw [List.find?_map, Option.map_map, Option.map_map]
  rfl

/-- The field of a setting gives it what the tree means. -/
theorem readLenient_field (x : Setting) (t : Tree) (s : Record) :
    x.field.readLenient t s = (x.read t).map fun v => x.set v s := by
  -- No field is a record with keys of its own, so each is read as a whole.
  have hwhole : x.field.readLenient t s = Field.readLenient.readWhole x.field t s := by
    cases x <;> cases t <;> rfl
  rw [hwhole]
  cases x with
  | interval | level | withTarget | withThreadIds | withAnsi | fileName => rfl
  | logDir =>
    rcases t with ⟨c, origin⟩ | ⟨items, origin⟩ | ⟨es, origin⟩
    · cases c <;> rfl
    · rfl
    · rfl
  | format =>
    rw [field, Field.readLenient.readWhole, read, readFormat]
    cases t.asChoice formatKind with
    | error e => rfl
    | ok name =>
      simp only [bind, Except.bind, option?_formats]
      cases formatOf? name <;> rfl

theorem spares_field (h : x ≠ y) : y.field.Spares x.get := by
  intro t s s' hs
  rw [readLenient_field] at hs
  cases hr : y.read t with
  | error e => rw [hr] at hs; cases hs
  | ok v =>
    rw [hr] at hs
    cases hs
    exact get_set_of_ne h v s

theorem find?_fieldsOf (x : Setting) : Field.find? (fieldsOf x.part) x.key = some x.field := by cases x <;> rfl

theorem mem_fieldsOf (h : (name, f) ∈ fieldsOf part) : ∃ x : Setting, x.part = part ∧ name = x.key ∧ f = x.field := by
  obtain ⟨x, hx, he⟩ := List.mem_map.1 h
  cases he
  exact ⟨x, by simpa using (List.mem_filter.1 hx).2, rfl, rfl⟩

/-! ## Records -/

/-- The fields of the whole record. -/
def sections : List (String × Field Record) :=
  [("notifier", .record "NotifierSettings" (fieldsOf "notifier")),
    ("logging", .record "LoggingConfig" (fieldsOf "logging"))]

theorem find?_sections (x : Setting) : ∃ kind, Field.find? sections x.part = some (.record kind (fieldsOf x.part)) := by
  cases x <;> exact ⟨_, rfl⟩

theorem mem_sections (h : (name, f) ∈ sections) :
    ∃ (x : Setting) (kind : String), x.part = name ∧ f = .record kind (fieldsOf name) := by
  rcases List.mem_pair.1 h with h | h <;> cases h
  exacts [⟨interval, _, rfl, rfl⟩, ⟨level, _, rfl, rfl⟩]

theorem spares_section (h : part ≠ x.part) (kind : String) : (Field.record kind (fieldsOf part)).Spares x.get := by
  refine Field.spares_record kind fun p hp => ?_
  obtain ⟨y, rfl, -, hy⟩ := mem_fieldsOf hp
  rw [hy]
  exact spares_field fun hxy => h (hxy ▸ rfl)

/-- What stands at the place of a setting. -/
def find? (x : Setting) (t : Tree) : Option Tree := ((t.get? x.part).getD .nothing).get? x.key

/-- A section that holds the setting, if it is there, is a table. -/
def Tabled (x : Setting) (t : Tree) : Prop := ∀ u, t.get? x.part = some u → u.isTable = true

theorem readKeys_fieldsOf {entries : List (String × Tree)} (origin : Option String)
    (hentries : Document.Ordered entries)
    (h : Field.readKeys (fieldsOf x.part) entries s = .ok s') :
    Field.ReadFrom x.field x.get ((Tree.table entries origin).get? x.key) s s' := by
  refine Field.readKeys_readFrom (find?_fieldsOf x) (fun n g hn hg => ?_) origin hentries h
  obtain ⟨y, hpart, rfl, rfl⟩ := mem_fieldsOf (Field.mem_of_find? hg)
  exact spares_field fun hxy => hn (hxy ▸ rfl)

/-- A record that is read from a tree has for a setting what stands at its place, and what it had if nothing stands
there. -/
theorem get_of_read (ht : t.Ordered) (hroot : t.isTable = true) (hx : x.Tabled t)
    (h : Record.schema.readLenient t s = .ok s') :
    (x.find? t = none → x.get s' = x.get s) ∧ ∀ u, x.find? t = some u → x.read u = .ok (x.get s') := by
  obtain ⟨es, origin, rfl⟩ := Tree.exists_of_isTable hroot
  obtain ⟨kind, hkind⟩ := find?_sections x
  rw [schema_eq] at h
  -- The sections do not touch one another, and the fields of a section do not either.
  have houter := Field.readKeys_readFrom hkind (fun n g hn hg => by
    obtain ⟨-, kind', -, rfl⟩ := mem_sections (Field.mem_of_find? hg)
    exact spares_section hn kind') origin ht.keys h
  unfold find?
  cases hpart : (Tree.table es origin).get? x.part with
  | none => exact ⟨fun _ => houter.absent hpart, nofun⟩
  | some w =>
    obtain ⟨s₁, s₂, h₁, h₂, h₃⟩ := houter.present w hpart
    obtain ⟨inner, origin', rfl⟩ := Tree.exists_of_isTable (hx _ hpart)
    have hinner := readKeys_fieldsOf origin' (ht.get? hpart).keys h₂
    refine ⟨fun hnone => (h₃.trans (hinner.absent hnone)).trans h₁, fun u hu => ?_⟩
    obtain ⟨s₃, s₄, -, h₄, h₅⟩ := hinner.present u hu
    rw [readLenient_field] at h₄
    cases hr : x.read u with
    | error e => rw [hr] at h₄; cases h₄
    | ok v =>
      rw [hr] at h₄
      cases h₄
      rw [h₃, h₅, get_set]

/-- A tree can be read if its sections are tables and what stands at the places of the settings means something. -/
theorem exists_read (ht : t.Ordered) (hroot : t.isTable = true) (htabled : ∀ x : Setting, x.Tabled t)
    (hmeans : ∀ (x : Setting) (u : Tree), x.find? t = some u → ∃ v, x.read u = .ok v) (s : Record) :
    ∃ s', Record.schema.readLenient t s = .ok s' := by
  obtain ⟨es, origin, rfl⟩ := Tree.exists_of_isTable hroot
  rw [schema_eq]
  refine Field.exists_readKeys s fun e he f hf s => ?_
  obtain ⟨x, kind, hx, hkind⟩ := mem_sections (Field.mem_of_find? hf)
  have hpart : (Tree.table es origin).get? e.1 = some e.2 := ht.get?_of_mem he
  obtain ⟨inner, origin', hinner⟩ := Tree.exists_of_isTable (htabled x e.2 (hx ▸ hpart))
  rw [hkind, hinner]
  refine Field.exists_readKeys s fun e' he' g hg s => ?_
  obtain ⟨y, hy, hkey, rfl⟩ := mem_fieldsOf (Field.mem_of_find? hg)
  have hfound : y.find? (.table es origin) = some e'.2 := by
    rw [find?, hy, hpart, Option.getD_some, ← hkey]
    exact (ht.get? hpart).get?_of_mem (hinner ▸ he')
  obtain ⟨v, hv⟩ := hmeans y e'.2 hfound
  exact ⟨y.set v s, by rw [readLenient_field, hv]; rfl⟩

end Setting

end Conduit.Settings
