import CoverageMatrix.Proofs.Data.Bounds
import CoverageMatrix.Proofs.Data.Decode

/-!
# Schemas of documents

What data may look like is written down here apart from any reader (`Kind`, `Data.Conforms`), and so
is what a value takes over from data (`Data.Sets`). A reader reads a schema (`Decode.ReadsAs`) if it
accepts the data that conforms, and nothing else, and its values carry what the data says.
-/
namespace CoverageMatrix

/-- What a document may hold in some place. -/
inductive Kind where
  | text
  /-- A whole number that is not negative. -/
  | natural
  | truth
  | texts
  /-- One of some names. -/
  | choice (names : List String)
  /-- A table with a text under each of its keys. -/
  | environment
  /-- A table with no other keys than these fields, some of which it needs. -/
  | record (fields : List (String × Kind)) (needed : List String)
  /-- A list of such tables. -/
  | records (fields : List (String × Kind)) (needed : List String)

namespace Data

/-- The data is of a kind, and so is all that it holds. -/
inductive Conforms : Kind → Data → Prop
  | text (s : String) : Conforms .text (.text s)
  | natural {n : Int} (positive : 0 ≤ n) : Conforms .natural (.int n)
  | truth (b : Bool) : Conforms .truth (.bool b)
  | texts (l : List String) : Conforms .texts (.texts l)
  | choice {names : List String} {s : String} (known : s ∈ names) :
    Conforms (.choice names) (.text s)
  | environment (l : List (String × String)) :
    Conforms .environment (.table (l.map fun e => (e.1, .text e.2)))
  | record {fields : List (String × Kind)} {needed : List String} {es : List (String × Data)}
    (known : ∀ e ∈ es, e.1 ∈ fields.map (·.1)) (complete : ∀ name ∈ needed, name ∈ es.map (·.1))
    (typed : ∀ e ∈ es, ∀ kind, fields.lookup e.1 = some kind → Conforms kind e.2) :
    Conforms (.record fields needed) (.table es)
  | records {fields : List (String × Kind)} {needed : List String} {ds : List Data}
    (each : ∀ d ∈ ds, Conforms (.record fields needed) d) :
    Conforms (.records fields needed) (.list ds)

/-- Where data of a kind is made of tables, the data is made of tables as well, and where it is a
name it is none. Nothing is said of keys, nor of other values. -/
inductive Written : Kind → Data → Prop
  | text (d : Data) : Written .text d
  | natural (d : Data) : Written .natural d
  | truth (d : Data) : Written .truth d
  | texts (d : Data) : Written .texts d
  | choice {names : List String} {d : Data} (flat : ∀ es, d ≠ .table es) : Written (.choice names) d
  | environment (es : List (String × Data)) : Written .environment (.table es)
  | record {fields : List (String × Kind)} {needed : List String} {es : List (String × Data)}
    (each : ∀ e ∈ es, ∀ kind, fields.lookup e.1 = some kind → Written kind e.2) :
    Written (.record fields needed) (.table es)
  | records {fields : List (String × Kind)} {needed : List String} {ds : List Data}
    (each : ∀ d ∈ ds, Written (.record fields needed) d) :
    Written (.records fields needed) (.list ds)

/-- What holds of entries that are fields is shown entry by entry. -/
theorem forall_entries_cons {fields : List (String × Kind)} {P : Kind → Data → Prop} {name : String}
    {d : Data} {es : List (String × Data)} {kind : Kind} (listed : fields.lookup name = some kind)
    (first : P kind d) (others : ∀ e ∈ es, ∀ kind, fields.lookup e.1 = some kind → P kind e.2) :
    ∀ e ∈ (name, d) :: es, ∀ kind, fields.lookup e.1 = some kind → P kind e.2 := by
  refine List.forall_mem_cons.2 ⟨fun kind' listed' => ?_, others⟩
  cases listed.symm.trans listed'
  exact first

/-- The data is the form of a value. -/
def Is {α : Type} (form : α → Data) (d : Data) (a : α) : Prop :=
  d = form a

/-- A value that may be left out is there. -/
def Gives {α : Type} (carries : Data → α → Prop) (d : Data) (o : Option α) : Prop :=
  ∃ a, o = some a ∧ carries d a

/-- A value is what a table holds for a field, or the default if it holds nothing. -/
def Sets {α : Type} (d : Data) (field : String) (carries : Data → α → Prop) (default a : α) :
    Prop :=
  match d.entries.lookup field with
  | some e => carries e a
  | none => a = default

/-- A value is what a table holds for a field. -/
def Has {α : Type} (d : Data) (field : String) (carries : Data → α → Prop) (a : α) : Prop :=
  ∃ e, d.entries.lookup field = some e ∧ carries e a

/-- What is carried over from a list is carried over item by item, in the same order. -/
def Itemwise {α : Type} (carries : Data → α → Prop) (d : Data) (l : List α) : Prop :=
  ∃ ds, d = .list ds ∧ List.Forall₂ carries ds l

end Data

namespace Decode

open Fragment (ofData ofItems ofEntries)
open Data (Is Gives Sets Has Itemwise)

/-- On data that it may be given, a reader accepts just what conforms to a schema, and what it reads
is what a value carries over from the data. -/
structure ReadsAs {α : Type} (reader : Fragment → Result α) (kind : Kind)
    (carries : Data → α → Prop) : Prop where
  conforms : ∀ {d a}, d.Regular → d.Written kind → reader (ofData d) = .ok a → d.Conforms kind
  ok_iff : ∀ {d a}, d.Regular → d.Conforms kind → (reader (ofData d) = .ok a ↔ carries d a)
  exists_carried : ∀ {d}, d.Regular → d.Conforms kind → ∃ a, carries d a

variable {α : Type} {reader : Fragment → Result α} {kind : Kind} {carries : Data → α → Prop}

/-! ## Values -/

theorem text_eq_ok_iff {d : Data} {s : String} : text (ofData d) = .ok s ↔ d = .text s := by
  cases d with
  | text t => simp
  | _ => exact iff_of_false nofun nofun

theorem path_eq_ok_iff {d : Data} {p : Path} : Path.decode (ofData d) = .ok p ↔ d = p.toData := by
  cases d with
  | text t =>
    obtain ⟨s⟩ := p
    have read : Path.decode (ofData (.text t)) = .ok ⟨t⟩ := rfl
    simp [read, Path.toData]
  | _ => exact iff_of_false nofun nofun

theorem bool_eq_ok_iff {d : Data} {b : Bool} : bool (ofData d) = .ok b ↔ d = .bool b := by
  cases d with
  | bool b => simp [bool, ofData]
  | _ => exact iff_of_false nofun nofun

/-- A reader that accepts the forms of values, if these are just the data of a kind. -/
theorem readsAs_of_form {form : α → Data} (reads : ∀ d a, reader (ofData d) = .ok a ↔ d = form a)
    (conforms : ∀ a, (form a).Conforms kind) (exists_form : ∀ d, d.Conforms kind → ∃ a, d = form a) :
    ReadsAs reader kind (Is form) where
  conforms {d a} _ _ read := (reads d a).1 read ▸ conforms a
  ok_iff {d a} _ _ := reads d a
  exists_carried {d} _ h := exists_form d h

theorem readsAs_text : ReadsAs text .text (Is .text) :=
  readsAs_of_form (fun _ _ => text_eq_ok_iff) .text fun | _, .text s => ⟨s, rfl⟩

theorem readsAs_path : ReadsAs Path.decode .text (Is Path.toData) :=
  readsAs_of_form (fun _ _ => path_eq_ok_iff) (fun p => .text p.text) fun | _, .text s => ⟨⟨s⟩, rfl⟩

theorem readsAs_bool : ReadsAs bool .truth (Is .bool) :=
  readsAs_of_form (fun _ _ => bool_eq_ok_iff) .truth fun | _, .truth b => ⟨b, rfl⟩

theorem readsAs_natural (expected : String) :
    ReadsAs (natural expected) .natural (Is fun n => .int n) where
  conforms {d a} _ _ h := by
    cases d with
    | int n =>
      rw [natural, ofData, integer] at h
      split at h
      · next bounds => exact .natural bounds.1
      · cases h
    | _ => cases h
  ok_iff {d a} regular h := by
    cases h with
    | @natural n positive =>
      cases regular with
      | int small =>
        obtain ⟨m, rfl⟩ := Int.eq_ofNat_of_zero_le positive
        rw [natural_ofData (Int.le_trans small (by decide)), Is, Except.ok.injEq, Data.int.injEq]
        exact Int.ofNat_inj.symm
  exists_carried {d} _ h := by
    cases h with
    | @natural n positive =>
      obtain ⟨m, rfl⟩ := Int.eq_ofNat_of_zero_le positive
      exact ⟨m, rfl⟩

theorem lookup_named_iff {name : α → String} {values : List α} (apart : (values.map name).Nodup)
    (all : ∀ a, a ∈ values) (s : String) (a : α) :
    (values.map fun a => (name a, a)).lookup s = some a ↔ s = name a := by
  constructor
  · intro found
    obtain ⟨b, -, eq⟩ := List.mem_map.1 (mem_of_lookup found)
    cases eq
    rfl
  · rintro rfl
    have keys : ((values.map fun a => (name a, a)).map (·.1)).Nodup := by rwa [List.map_map]
    exact lookup_of_mem keys (List.mem_map.2 ⟨a, all a, rfl⟩)

/-- A name stands for one value, and each value has a name. -/
theorem readsAs_variant {variants : List (String × α)} {name : α → String}
    (named : ∀ s a, variants.lookup s = some a ↔ s = name a) :
    ReadsAs (variant .toml variants) (.choice (variants.map (·.1)))
      (Is fun a => .text (name a)) where
  conforms {d a} _ written h := by
    cases d with
    | text s =>
      rw [ofData, variant, variant.named] at h
      split at h
      · next v found =>
        exact .choice (List.mem_map_of_mem (mem_of_lookup found))
      · cases h
    | table es =>
      cases written with
      | choice flat => exact absurd rfl (flat es)
    | _ => cases h
  ok_iff {d a} _ h := by
    cases h with
    | @choice _ s known =>
      rw [ofData, variant, variant.named, Is, Data.text.injEq, ← named]
      cases variants.lookup s <;> simp
  exists_carried {d} _ h := by
    cases h with
    | @choice _ s known =>
      obtain ⟨v, found⟩ := exists_lookup known
      exact ⟨v, congrArg Data.text ((named s v).1 found)⟩

/-- A value that is there is never taken for one that is left out. -/
theorem optional_eq_ok_iff {d : Data} (regular : d.Regular) {o : Option α} :
    Decode.optional reader (ofData d) = .ok o ↔ ∃ a, o = some a ∧ reader (ofData d) = .ok a := by
  have there : Decode.optional reader (ofData d) = (reader (ofData d)).map some := by
    cases regular <;> rfl
  rw [there]
  cases reader (ofData d) with
  | error e => exact iff_of_false nofun nofun
  | ok a => simp [Except.map, eq_comm]

theorem ReadsAs.optional (h : ReadsAs reader kind carries) :
    ReadsAs (Decode.optional reader) kind (Gives carries) where
  conforms {d o} regular written read := by
    obtain ⟨a, -, read⟩ := (optional_eq_ok_iff regular).1 read
    exact h.conforms regular written read
  ok_iff {d o} regular conforms := by
    simp only [optional_eq_ok_iff regular, h.ok_iff regular conforms, Gives]
  exists_carried {d} regular conforms := by
    obtain ⟨a, carried⟩ := h.exists_carried regular conforms
    exact ⟨some a, a, rfl, carried⟩

/-! ## Lists and maps -/

theorem listOf_eq_ok_iff {item : Fragment → Result α} {ds : List Data} {l : List α} :
    listOf item (ofData (.list ds)) = .ok l ↔
      List.Forall₂ (fun d a => item (ofData d) = .ok a) ds l := by
  rw [ofData, ofItems_eq_map, listOf, bind_eq_ok_iff]
  simp only [mapM_eq_ok_iff, List.forall₂_map_left_iff]
  constructor
  · rintro ⟨items, read, eq⟩
    cases eq
    exact read
  · exact fun read => ⟨l, read, rfl⟩

theorem forall₂_eq_form_iff {β γ : Type} {form : γ → β} {xs : List β} {ys : List γ} :
    List.Forall₂ (fun x y => x = form y) xs ys ↔ xs = ys.map form := by
  rw [← List.forall₂_eq_eq_eq, List.forall₂_map_right_iff]

theorem listOf_text_eq_ok_iff {d : Data} {l : List String} :
    listOf text (ofData d) = .ok l ↔ d = .texts l := by
  cases d with
  | list ds =>
    rw [listOf_eq_ok_iff, Data.texts, Data.list.injEq, ← forall₂_eq_form_iff]
    simp only [text_eq_ok_iff]
  | _ => exact iff_of_false nofun nofun

theorem readsAs_listOf_text : ReadsAs (listOf text) .texts (Is .texts) :=
  readsAs_of_form (fun _ _ => listOf_text_eq_ok_iff) .texts fun | _, .texts l => ⟨l, rfl⟩

theorem forall₂_congr_of_mem {β γ : Type} {R S : β → γ → Prop} {xs : List β} {ys : List γ}
    (same : ∀ x ∈ xs, ∀ y, R x y ↔ S x y) : List.Forall₂ R xs ys ↔ List.Forall₂ S xs ys := by
  induction xs generalizing ys with
  | nil => rw [List.forall₂_nil_left_iff, List.forall₂_nil_left_iff]
  | cons x xs ih =>
    obtain ⟨first, others⟩ := List.forall_mem_cons.1 same
    simp only [List.forall₂_cons_left_iff, first, ih others]

theorem exists_forall₂ {β γ : Type} {R : β → γ → Prop} {xs : List β}
    (each : ∀ x ∈ xs, ∃ y, R x y) : ∃ ys, List.Forall₂ R xs ys := by
  induction xs with
  | nil => exact ⟨[], .nil⟩
  | cons x xs ih =>
    obtain ⟨y, first⟩ := each x List.mem_cons_self
    obtain ⟨ys, others⟩ := ih fun x mem => each x (List.mem_cons_of_mem _ mem)
    exact ⟨y :: ys, .cons first others⟩

theorem ReadsAs.listOf {fields : List (String × Kind)} {needed : List String}
    (h : ReadsAs reader (.record fields needed) carries) :
    ReadsAs (listOf reader) (.records fields needed) (Itemwise carries) where
  conforms {d l} regular written read := by
    cases written with
    | @records _ _ ds written =>
      cases regular with
      | list regular =>
        have items := (List.forall₂_and_left (p := fun d => d ∈ ds) ds l).2
          ⟨fun _ mem => mem, listOf_eq_ok_iff.1 read⟩
        have conforming := items.imp fun d a item =>
          And.intro (h.conforms (regular d item.1) (written d item.1) item.2) item.2
        exact .records ((List.forall₂_and_left _ _).1 conforming).1
  ok_iff {d l} regular conforms := by
    cases conforms with
    | @records _ _ ds conforms =>
      cases regular with
      | list regular =>
        have same : ∀ d ∈ ds, ∀ a, reader (ofData d) = .ok a ↔ carries d a := fun d mem a =>
          h.ok_iff (regular d mem) (conforms d mem)
        rw [listOf_eq_ok_iff, forall₂_congr_of_mem same, Itemwise]
        constructor
        · exact fun carried => ⟨ds, rfl, carried⟩
        · rintro ⟨_, eq, carried⟩
          cases eq
          exact carried
  exists_carried {d} regular conforms := by
    cases conforms with
    | @records _ _ ds conforms =>
      cases regular with
      | list regular =>
        obtain ⟨l, carried⟩ := exists_forall₂ fun d mem =>
          h.exists_carried (regular d mem) (conforms d mem)
        exact ⟨l, ds, rfl, carried⟩

theorem tableOf_text_eq_ok_iff {es : List (String × Data)} {l : List (String × String)} :
    tableOf text (ofData (.table es)) = .ok l ↔ es = l.map fun e => (e.1, .text e.2) := by
  let entry (e : Key × Fragment) : Result (String × String) := do
    let name ← keyName e.1
    let v ← text e.2
    pure (name, v)
  have entry_eq_ok_iff (e : String × Data) (p : String × String) :
      entry (Key.ofText e.1, ofData e.2) = .ok p ↔ e = (p.1, .text p.2) := by
    have name : keyName (Key.ofText e.1) = .ok e.1 := rfl
    obtain ⟨k, d⟩ := e
    obtain ⟨k', s⟩ := p
    simp only [entry, name, bind_eq_ok_iff, text_eq_ok_iff, Prod.mk.injEq]
    constructor
    · rintro ⟨_, eq, v, rfl, read⟩
      cases eq
      cases read
      exact ⟨rfl, rfl⟩
    · rintro ⟨rfl, rfl⟩
      exact ⟨k, rfl, s, rfl, rfl⟩
  have entries : (es.map fun e => (Key.ofText e.1, ofData e.2)).mapM entry = .ok l ↔
      es = l.map fun e => (e.1, .text e.2) := by
    rw [mapM_eq_ok_iff, List.forall₂_map_left_iff, ← forall₂_eq_form_iff]
    simp only [entry_eq_ok_iff]
  rw [ofData, ofEntries_eq_map, tableOf, bind_eq_ok_iff, ← entries]
  constructor
  · rintro ⟨read, each, eq⟩
    cases eq
    exact each
  · exact fun each => ⟨l, each, rfl⟩

/-! ## Records -/

/-- The check of a field accepts the data that conforms to its kind. -/
structure Meets (f : Field) (field : String × Kind) : Prop where
  name : f.name = field.1
  conforms : ∀ {d : Data}, d.Regular → d.Written field.2 → f.check (ofData d) = .ok () →
    d.Conforms field.2
  accepted : ∀ {d : Data}, d.Regular → d.Conforms field.2 → f.check (ofData d) = .ok ()

theorem ReadsAs.meets (h : ReadsAs reader kind carries) (name : String) :
    Meets (.of name reader) (name, kind) where
  name := rfl
  conforms {d} regular written accepted := by
    cases read : reader (ofData d) with
    | error e => simp [Field.of, read, Except.map] at accepted
    | ok a => exact h.conforms regular written read
  accepted {d} regular conforms := by
    obtain ⟨a, carried⟩ := h.exists_carried regular conforms
    simp [Field.of, (h.ok_iff regular conforms).2 carried, Except.map]

theorem ReadsAs.meets_defaulted (h : ReadsAs reader kind carries) (name : String) :
    Meets (.defaulted name reader) (name, kind) :=
  ⟨rfl, (h.meets name).conforms, (h.meets name).accepted⟩

theorem checkEntries_eq_ok {fields : List Field} {es : List (String × Data)} {seen : List String}
    {r : RecordEntries} (h : checkEntries fields .refused seen (ofEntries es) = .ok r) :
    r = shown es ∧ ∀ e ∈ es, ∃ f, fields.find? (·.name = e.1) = some f ∧
      f.check (ofData e.2) = .ok () := by
  induction es generalizing seen r with
  | nil =>
    cases h
    exact ⟨rfl, by simp⟩
  | cons e es ih =>
    obtain ⟨k, d⟩ := e
    rw [ofEntries, checkEntries] at h
    obtain ⟨name, named, h⟩ := ok_of_bind h
    cases named
    cases found : fields.find? (·.name = k) with
    | none =>
      rw [found] at h
      cases h
    | some f =>
      rw [found] at h
      dsimp only at h
      split at h
      · cases h
      · obtain ⟨_, accepted, h⟩ := ok_of_bind h
        obtain ⟨known, checked, h⟩ := ok_of_bind h
        cases h
        obtain ⟨rfl, others⟩ := ih checked
        exact ⟨rfl, List.forall_mem_cons.2 ⟨⟨f, found, accepted⟩, others⟩⟩

theorem exists_mem_of_forall₂ {β γ : Type} {R : β → γ → Prop} {xs : List β} {ys : List γ}
    (h : List.Forall₂ R xs ys) {x : β} (mem : x ∈ xs) : ∃ y ∈ ys, R x y := by
  induction h with
  | nil => cases mem
  | cons first _ ih =>
    rcases List.mem_cons.1 mem with rfl | mem
    · exact ⟨_, List.mem_cons_self, first⟩
    · obtain ⟨y, mem, related⟩ := ih mem
      exact ⟨y, List.mem_cons_of_mem _ mem, related⟩

theorem names_of_meets {fields : List Field} {kinds : List (String × Kind)}
    (meets : List.Forall₂ Meets fields kinds) : fields.map (·.name) = kinds.map (·.1) := by
  induction meets with
  | nil => rfl
  | cons first _ ih => rw [List.map_cons, List.map_cons, first.name, ih]

section
variable {fields : List Field} {kinds : List (String × Kind)} {needed : List String}
  {es : List (String × Data)}

theorem fits_of_conforms (meets : List.Forall₂ Meets fields kinds) (apart : (kinds.map (·.1)).Nodup)
    (regular : (Data.table es).Regular)
    (conforms : (Data.table es).Conforms (.record kinds needed)) : Fits fields es := by
  cases regular with
  | table keys regular =>
    cases conforms with
    | record known complete typed =>
      refine ⟨keys, fun e mem => ?_, fun f among d found => ?_⟩
      · rw [names_of_meets meets]
        exact known e mem
      · obtain ⟨field, listed, meets⟩ := exists_mem_of_forall₂ meets among
        have mem := mem_of_lookup found
        rw [meets.name] at mem
        exact meets.accepted (regular _ mem) (typed _ mem _ (lookup_of_mem apart listed))

theorem conforms_of_record {name : String} {r : RecordEntries}
    (meets : List.Forall₂ Meets fields kinds) (apart : (kinds.map (·.1)).Nodup)
    (regular : (Data.table es).Regular) (written : (Data.table es).Written (.record kinds needed))
    (recorded : record .toml name .refused fields (ofData (.table es)) = .ok r) :
    r = shown es ∧ ((∀ n ∈ needed, n ∈ es.map (·.1)) →
      (Data.table es).Conforms (.record kinds needed)) := by
  cases regular with
  | table keys regular =>
    cases written with
    | record written =>
      obtain ⟨known, checked, rest⟩ := ok_of_bind recorded
      cases rest
      obtain ⟨rfl, each⟩ := checkEntries_eq_ok checked
      refine ⟨rfl, fun complete => .record (fun e mem => ?_) complete fun e mem kind listed => ?_⟩
      · obtain ⟨f, found, -⟩ := each e mem
        have same : f.name = e.1 := by simpa using List.find?_some found
        rw [← names_of_meets meets, ← same]
        exact List.mem_map_of_mem (List.mem_of_find?_eq_some found)
      · obtain ⟨f, found, accepted⟩ := each e mem
        have same : f.name = e.1 := by simpa using List.find?_some found
        obtain ⟨field, among, meets⟩ :=
          exists_mem_of_forall₂ meets (List.mem_of_find?_eq_some found)
        have kind_eq := lookup_of_mem apart among
        rw [← meets.name, same, listed] at kind_eq
        cases kind_eq
        exact meets.conforms (regular e mem) (written e mem _ listed) accepted

/-- A reader that finds the entries of a record, and then builds a value from them. -/
theorem readsAs_record {decode : Fragment → Result α} {build : RecordEntries → Result α}
    {name : String} (reads : ∀ x, decode x = record .toml name .refused fields x >>= build)
    (meets : List.Forall₂ Meets fields kinds) (apart : (kinds.map (·.1)).Nodup)
    (complete : ∀ es a, build (shown es) = .ok a → ∀ n ∈ needed, n ∈ es.map (·.1))
    (builds : ∀ es, (Data.table es).Regular → (Data.table es).Conforms (.record kinds needed) →
      ∀ a, carries (.table es) a → build (shown es) = .ok a)
    (exists_carried : ∀ es, (Data.table es).Regular →
      (Data.table es).Conforms (.record kinds needed) → ∃ a, carries (.table es) a) :
    ReadsAs decode (.record kinds needed) carries where
  conforms {d a} regular written read := by
    cases written with
    | @record _ _ es written =>
      rw [reads, bind_eq_ok_iff] at read
      obtain ⟨r, recorded, built⟩ := read
      obtain ⟨rfl, conforms⟩ := conforms_of_record meets apart regular (.record written) recorded
      exact conforms (complete es a built)
  ok_iff {d a} regular conforms := by
    cases conforms with
    | @record _ _ es known complete typed =>
      have conforms := Data.Conforms.record known complete typed
      rw [reads, record_ofData _ _ _ (fits_of_conforms meets apart regular conforms)]
      refine ⟨fun built => ?_, builds es regular conforms a⟩
      obtain ⟨c, carried⟩ := exists_carried es regular conforms
      -- what is built is what carries the data
      have same := (builds es regular conforms c carried).symm.trans built
      cases same
      exact carried
  exists_carried {d} regular conforms := by
    cases conforms with
    | @record _ _ es known complete typed =>
      exact exists_carried es regular (.record known complete typed)

/-! ## Fields of records -/

theorem conforms_of_lookup (conforms : (Data.table es).Conforms (.record kinds needed))
    {field : String} (listed : kinds.lookup field = some kind) {d : Data}
    (found : es.lookup field = some d) : d.Conforms kind := by
  cases conforms with
  | record known complete typed => exact typed _ (mem_of_lookup found) kind listed

theorem regular_of_lookup (regular : (Data.table es).Regular) {field : String} {d : Data}
    (found : es.lookup field = some d) : d.Regular := by
  cases regular with
  | table keys regular => exact regular _ (mem_of_lookup found)

namespace ReadsAs

variable (h : ReadsAs reader kind carries) (regular : (Data.table es).Regular)
  (conforms : (Data.table es).Conforms (.record kinds needed))
include h regular conforms

theorem getD {field : String} {default a : α} (sets : (Data.table es).Sets field carries default a)
    (listed : kinds.lookup field = some kind) : (shown es).getD field reader default = .ok a := by
  rw [RecordEntries.getD, lookup_shown]
  simp only [Sets, Data.entries] at sets
  cases found : es.lookup field with
  | none =>
    rw [found] at sets
    exact congrArg Except.ok sets.symm
  | some d =>
    rw [found] at sets
    exact (h.ok_iff (regular_of_lookup regular found)
      (conforms_of_lookup conforms listed found)).2 sets

theorem get {field : String} {a : α} (has : (Data.table es).Has field carries a)
    (listed : kinds.lookup field = some kind) : (shown es).get field reader = .ok a := by
  obtain ⟨d, found, carried⟩ := has
  refine get_of_lookup found ?_
  exact (h.ok_iff (regular_of_lookup regular found)
    (conforms_of_lookup conforms listed found)).2 carried

theorem exists_sets (field : String) (default : α) (listed : kinds.lookup field = some kind) :
    ∃ a, (Data.table es).Sets field carries default a := by
  simp only [Sets, Data.entries]
  cases found : es.lookup field with
  | none => exact ⟨default, rfl⟩
  | some d =>
    exact h.exists_carried (regular_of_lookup regular found)
      (conforms_of_lookup conforms listed found)

theorem exists_has (field : String) (need : field ∈ needed)
    (listed : kinds.lookup field = some kind) : ∃ a, (Data.table es).Has field carries a := by
  have present : field ∈ es.map (·.1) := by
    cases conforms with
    | record known complete typed => exact complete field need
  obtain ⟨d, found⟩ := exists_lookup present
  obtain ⟨a, carried⟩ := h.exists_carried (regular_of_lookup regular found)
    (conforms_of_lookup conforms listed found)
  exact ⟨a, d, found, carried⟩

end ReadsAs

theorem mem_keys_of_get {field : String} {a : α} (read : (shown es).get field reader = .ok a) :
    field ∈ es.map (·.1) := by
  rw [RecordEntries.get, lookup_shown] at read
  cases found : es.lookup field with
  | none =>
    rw [found] at read
    cases read
  | some d => exact List.mem_map_of_mem (mem_of_lookup found)

end
end Decode
end CoverageMatrix
