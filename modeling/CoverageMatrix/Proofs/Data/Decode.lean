import CoverageMatrix.Config.Form

/-! Readers of typed values on data that is there in full. -/
namespace CoverageMatrix

/-- The entries of a table. -/
def Data.entries : Data → List (String × Data)
  | .table es => es
  | _ => []

namespace Decode

open Fragment (ofData ofItems ofEntries)

/-! ## Values -/

@[simp] theorem text_ofData (s : String) : text (ofData (.text s)) = .ok s := rfl

theorem natural_ofData {n : Nat} (small : (n : Int) ≤ Data.maxUInt64) (expected : String) :
    natural expected (ofData (.int n)) = .ok n := by
  rw [natural, ofData, integer, if_pos ⟨Int.natCast_nonneg n, small⟩]
  rfl

theorem code_ofData {n : Int} (low : -2147483648 ≤ n) (high : n ≤ 2147483647) :
    code (ofData (.int n)) = .ok n := by
  rw [code, ofData, integer, if_pos ⟨low, high⟩]

/-- Data whose tables are sorted already is read as it is. -/
theorem any_ofData {d : Data} (sorted : d.sorted = d) : any (ofData d) = .ok d := by
  rw [any, Fragment.toData_ofData]
  exact congrArg Except.ok sorted

theorem ofItems_eq_map (items : List Data) : ofItems items = items.map ofData := by
  induction items with
  | nil => rfl
  | cons d items ih => rw [ofItems, ih, List.map_cons]

theorem ofEntries_eq_map (es : List (String × Data)) :
    ofEntries es = es.map fun e => (Key.ofText e.1, ofData e.2) := by
  induction es with
  | nil => rfl
  | cons e es ih => rw [ofEntries, ih, List.map_cons]

/-- A list whose items all read back reads back. -/
theorem mapM_map_ok {α β ε : Type} (read : α → Except ε β) (form : β → α) {values : List β}
    (each : ∀ v ∈ values, read (form v) = .ok v) : (values.map form).mapM read = .ok values := by
  induction values with
  | nil => rfl
  | cons v values ih =>
    rw [List.map_cons, List.mapM_cons, each v List.mem_cons_self,
      ih fun v mem => each v (List.mem_cons_of_mem _ mem)]
    rfl

theorem listOf_ofData {α : Type} {item : Fragment → Result α} {form : α → Data} {values : List α}
    (each : ∀ v ∈ values, item (ofData (form v)) = .ok v) :
    listOf item (ofData (.list (values.map form))) = .ok values := by
  have items := mapM_map_ok item (ofData ∘ form) each
  rw [ofData, ofItems_eq_map, List.map_map, listOf, items]
  rfl

theorem listOf_text_texts (values : List String) :
    listOf text (ofData (.texts values)) = .ok values :=
  listOf_ofData fun _ _ => rfl

theorem tableOf_text_texts (es : List (String × String)) :
    tableOf text (ofData (.table (es.map fun e => (e.1, .text e.2)))) = .ok es := by
  let entry (e : Key × Fragment) : Result (String × String) := do
    let name ← keyName e.1
    let v ← text e.2
    pure (name, v)
  have entries : (es.map fun e => (Key.ofText e.1, .text e.2)).mapM entry = .ok es :=
    mapM_map_ok entry _ fun _ _ => rfl
  rw [ofData, ofEntries_eq_map, List.map_map, tableOf]
  exact congrArg (· >>= _) entries

/-- A value that is there is what its reader reads. -/
theorem optional_ofData {α : Type} {value : Fragment → Result α} {d : Data} {a : α}
    (read : value (ofData d) = .ok a) (there : d ≠ .null) :
    optional value (ofData d) = .ok (some a) := by
  cases d with
  | null => exact absurd rfl there
  | _ => exact congrArg (Except.map some) read

theorem variant_ofData {α : Type} (dialect : Dialect) {variants : List (String × α)} {s : String}
    {a : α} (known : variants.lookup s = some a) :
    variant dialect variants (ofData (.text s)) = .ok a := by
  rw [ofData, variant, variant.named, known]

/-! ## Records -/

/-- The entries of a table as a reader of records finds them. -/
def shown (es : List (String × Data)) : RecordEntries :=
  es.map fun e => (e.1, ofData e.2)

theorem lookup_shown (es : List (String × Data)) (field : String) :
    (shown es).lookup field = (es.lookup field).map ofData := by
  induction es with
  | nil => rfl
  | cons e es ih =>
    rw [shown, List.map_cons, List.lookup_cons, List.lookup_cons]
    cases field == e.1 with
    | true => rfl
    | false => exact ih

/-- What a table holds for a field reads as a value, which is the default if it holds nothing. -/
def Reads {α : Type} (es : List (String × Data)) (field : String) (reader : Fragment → Result α)
    (default a : α) : Prop :=
  match es.lookup field with
  | some d => reader (ofData d) = .ok a
  | none => default = a

section
variable {α : Type} {reader : Fragment → Result α} {field : String} {es : List (String × Data)}
  {default a : α}

theorem Reads.of_lookup {d : Data} (there : es.lookup field = some d)
    (read : reader (ofData d) = .ok a) : Reads es field reader default a := by
  unfold Reads
  rw [there]
  exact read

theorem Reads.of_option_of_mem {value : Fragment → Result α} {form : α → Data} {o : Option α}
    (there : es.lookup field = o.map form) (some : ∀ a, form a ≠ .null)
    (read : ∀ a ∈ o, value (ofData (form a)) = .ok a) :
    Reads es field (optional value) none o := by
  unfold Reads
  rw [there]
  cases o with
  | none => rfl
  | some a => exact optional_ofData (read a rfl) (some a)

/-- A value that may be left out. -/
theorem Reads.of_option {value : Fragment → Result α} {form : α → Data} {o : Option α}
    (there : es.lookup field = o.map form) (some : ∀ a, form a ≠ .null)
    (read : ∀ a, value (ofData (form a)) = .ok a) :
    Reads es field (optional value) none o :=
  .of_option_of_mem there some fun a _ => read a

theorem Reads.getD (h : Reads es field reader default a) :
    (shown es).getD field reader default = .ok a := by
  rw [RecordEntries.getD, lookup_shown]
  unfold Reads at h
  cases found : es.lookup field with
  | none =>
    rw [found] at h
    exact congrArg _ h
  | some d =>
    rw [found] at h
    exact h

theorem get_of_lookup {d : Data} (there : es.lookup field = some d)
    (read : reader (ofData d) = .ok a) : (shown es).get field reader = .ok a := by
  rw [RecordEntries.get, lookup_shown, there]
  exact read

theorem Reads.check (h : Reads es field reader default a) {d : Data}
    (there : es.lookup field = some d) : (reader (ofData d)).map (fun _ => ()) = .ok () := by
  unfold Reads at h
  rw [there] at h
  rw [h]
  rfl

end

/-- What a table holds for a field reads as a value. -/
def Holds {α : Type} (es : List (String × Data)) (field : String) (reader : Fragment → Result α)
    (a : α) : Prop :=
  ∃ d, es.lookup field = some d ∧ reader (ofData d) = .ok a

section
variable {α : Type} {reader : Fragment → Result α} {field : String} {es : List (String × Data)}
  {a : α}

theorem Holds.get (h : Holds es field reader a) : (shown es).get field reader = .ok a := by
  obtain ⟨d, there, read⟩ := h
  exact get_of_lookup there read

theorem Holds.getD (h : Holds es field reader a) (default : α) :
    (shown es).getD field reader default = .ok a := by
  obtain ⟨d, there, read⟩ := h
  exact (Reads.of_lookup there read).getD

theorem Holds.check (h : Holds es field reader a) (d : Data) (there : es.lookup field = some d) :
    (reader (ofData d)).map (fun _ => ()) = .ok () := by
  obtain ⟨d', there', read⟩ := h
  cases there.symm.trans there'
  rw [read]
  rfl

end

/-- Every entry of a table is a field, and fields that it holds are accepted. -/
structure Fits (fields : List Field) (es : List (String × Data)) : Prop where
  keys : (es.map (·.1)).Nodup
  known : ∀ e ∈ es, e.1 ∈ fields.map (·.name)
  accepted : ∀ f ∈ fields, ∀ d, es.lookup f.name = some d → f.check (ofData d) = .ok ()

/-- The entries may be some of the fields in their order. -/
theorem Fits.of_sublist {fields : List Field} {names : List String} {es : List (String × Data)}
    (order : (es.map (·.1)).Sublist names) (named : fields.map (·.name) = names)
    (apart : names.Nodup)
    (accepted : ∀ f ∈ fields, ∀ d, es.lookup f.name = some d → f.check (ofData d) = .ok ()) :
    Fits fields es := by
  subst named
  exact ⟨apart.sublist order, fun _ mem => order.subset (List.mem_map_of_mem mem), accepted⟩

theorem lookup_of_mem {β : Type} {es : List (String × β)} (keys : (es.map (·.1)).Nodup)
    {e : String × β} (mem : e ∈ es) : es.lookup e.1 = some e.2 := by
  induction es with
  | nil => cases mem
  | cons e' es ih =>
    have apart := List.nodup_cons.1 keys
    rw [List.lookup_cons]
    rcases List.mem_cons.1 mem with rfl | mem
    · simp
    · have other : e.1 ≠ e'.1 := fun same =>
        apart.1 (List.mem_map.2 ⟨e, mem, same⟩)
      rw [beq_false_of_ne other]
      exact ih apart.2 mem

theorem mem_of_lookup {β : Type} {es : List (String × β)} {k : String} {b : β}
    (found : es.lookup k = some b) : (k, b) ∈ es := by
  obtain ⟨before, after, rfl, -⟩ := List.lookup_eq_some_iff.1 found
  exact List.mem_append_right _ List.mem_cons_self

theorem exists_lookup {β : Type} {es : List (String × β)} {k : String}
    (mem : k ∈ es.map (·.1)) : ∃ b, es.lookup k = some b := by
  apply Option.ne_none_iff_exists'.1
  intro missing
  obtain ⟨e, among, rfl⟩ := List.mem_map.1 mem
  simpa using List.lookup_eq_none_iff.1 missing e among

theorem checkEntries_ofEntries {fields : List Field} (unknown : Unknown)
    {es : List (String × Data)} (keys : (es.map (·.1)).Nodup)
    (each : ∀ e ∈ es, ∃ f, fields.find? (·.name = e.1) = some f ∧ f.check (ofData e.2) = .ok ())
    (seen : List String) (new : ∀ e ∈ es, e.1 ∉ seen) :
    checkEntries fields unknown seen (ofEntries es) = .ok (shown es) := by
  induction es generalizing seen with
  | nil => rfl
  | cons e es ih =>
    obtain ⟨k, d⟩ := e
    obtain ⟨f, found, check⟩ := each (k, d) List.mem_cons_self
    have apart := List.nodup_cons.1 keys
    have rest := ih apart.2 (fun e mem => each e (List.mem_cons_of_mem _ mem)) (k :: seen)
      fun e mem known => by
        rcases List.mem_cons.1 known with same | known
        · exact apart.1 (List.mem_map.2 ⟨e, mem, same⟩)
        · exact new e (List.mem_cons_of_mem _ mem) known
    have name : keyName (Key.ofText k) = .ok k := rfl
    rw [ofEntries, checkEntries, name]
    simp only [bind, Except.bind, found, if_neg (new (k, d) List.mem_cons_self), check, rest]
    rfl

theorem record_ofData (dialect : Dialect) (name : String) (unknown : Unknown)
    {fields : List Field} {es : List (String × Data)} (fits : Fits fields es) :
    record dialect name unknown fields (ofData (.table es)) = .ok (shown es) := by
  have each : ∀ e ∈ es, ∃ f, fields.find? (·.name = e.1) = some f ∧
      f.check (ofData e.2) = .ok () := by
    intro e mem
    obtain ⟨g, among, named⟩ := List.mem_map.1 (fits.known e mem)
    cases found : fields.find? (·.name = e.1) with
    | none => exact absurd named (by simpa using List.find?_eq_none.1 found g among)
    | some f =>
      have same : f.name = e.1 := by simpa using List.find?_some found
      refine ⟨f, rfl, fits.accepted f (List.mem_of_find?_eq_some found) e.2 ?_⟩
      rw [same, lookup_of_mem fits.keys mem]
  rw [ofData, record, checkEntries_ofEntries unknown fits.keys each [] fun _ _ => List.not_mem_nil]
  rfl

end Decode
end CoverageMatrix
