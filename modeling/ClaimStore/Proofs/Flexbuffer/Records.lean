import ClaimStore.Proofs.Flexbuffer.Vectors

/-!
Records are read back.

A record is stored as a map: the vector of its names, sorted, and the vector of its values in the
same order. The wanted fields are found by their names, so the order does not matter.
-/
namespace ClaimStore.Flexbuffer

open Writer

variable {base : Nat} {bytes buffer : Array UInt8} {writer start after : Writer}

theorem insertField_perm (field : String × Nat × Slot) (fields : List (String × Nat × Slot)) :
    (Writer.insertField field fields).Perm (field :: fields) := by
  induction fields with
  | nil => exact List.Perm.refl _
  | cons head rest ih =>
      unfold Writer.insertField
      split
      · exact List.Perm.refl _
      · exact (List.Perm.cons head ih).trans (List.Perm.swap field head rest)

theorem sortFields_perm (fields : List (String × Nat × Slot)) :
    (Writer.sortFields fields).Perm fields := by
  induction fields with
  | nil => exact List.Perm.refl _
  | cons field rest ih => exact (insertField_perm field _).trans (List.Perm.cons field ih)

/-- The value of a name is found, wherever it stands among distinct names. -/
theorem lookup_of_member {α : Type} {entries : List (String × α)} {name : String} {value : α}
    (distinct : (entries.map Prod.fst).Nodup) (member : (name, value) ∈ entries) :
    entries.lookup name = some value := by
  obtain ⟨front, back, rfl⟩ := List.append_of_mem member
  refine List.lookup_eq_some_iff.mpr ⟨front, back, rfl, ?_⟩
  intro entry earlier
  rw [List.map_append, List.map_cons] at distinct
  have apart := (List.nodup_append.mp distinct).2.2 entry.1 (List.mem_map_of_mem earlier) name
    List.mem_cons_self
  exact bne_iff_ne.mpr (Ne.symm apart)

theorem lookup_isSome_eq_false {α : Type} {entries : List (String × α)} {name : String}
    (absent : name ∉ entries.map Prod.fst) : (entries.lookup name).isSome = false := by
  rw [Option.isSome_eq_false_iff, Option.isNone_iff_eq_none, List.lookup_eq_none_iff]
  intro entry member
  exact bne_iff_ne.mpr fun same => absent (List.mem_map.mpr ⟨entry, member, same.symm⟩)

/-- All fields of a map whose names are distinct and wanted are collected, after those that have
been found already. -/
theorem collectFields_all (cursor names : Cursor) {labels done todo wanted : List String}
    {found : List (String × Cursor)} (parts : labels = done ++ todo) (distinct : labels.Nodup)
    (all : ∀ label ∈ labels, label ∈ wanted)
    (keys : ∀ index label, labels[index]? = some label →
      (names.element labels.length index).kind = .key ∧
        (names.element labels.length index).keyName = label)
    (sofar : found.map Prod.fst = done.reverse) :
    ∃ values, cursor.collectFields names labels.length wanted todo.length found = some values ∧
      values.map Prod.fst = labels.reverse ∧ (∀ entry ∈ found, entry ∈ values) ∧
      ∀ index label, done.length ≤ index → labels[index]? = some label →
        (label, cursor.element labels.length index) ∈ values := by
  induction todo generalizing done found with
  | nil =>
      refine ⟨found, rfl, by rw [sofar, parts, List.append_nil], fun _ member => member, ?_⟩
      intro index label beyond held
      have bound := (List.getElem?_eq_some_iff.mp held).1
      rw [parts, List.append_nil] at bound
      omega
  | cons label rest ih =>
      have place : labels.length - (rest.length + 1) = done.length := by
        rw [parts, List.length_append, List.length_cons]
        omega
      have held : labels[done.length]? = some label := by
        rw [parts, List.getElem?_append_right (Nat.le_refl _), Nat.sub_self, List.getElem?_cons_zero]
      obtain ⟨isKey, name⟩ := keys _ _ held
      have fresh : (found.lookup label).isSome = false := by
        apply lookup_isSome_eq_false
        rw [sofar, List.mem_reverse]
        rw [parts] at distinct
        intro earlier
        exact (List.nodup_append.mp distinct).2.2 label earlier label List.mem_cons_self rfl
      have listed : label ∈ wanted := all label (by rw [parts]; simp)
      obtain ⟨values, collected, labelled, kept, added⟩ :=
        ih (by rw [parts, List.append_assoc, List.singleton_append])
          (show ((label, cursor.element labels.length done.length) :: found).map Prod.fst =
            (done ++ [label]).reverse by simp [sofar])
      refine ⟨values, ?_, labelled, fun entry member => kept entry (List.mem_cons_of_mem _ member),
        ?_⟩
      · rw [List.length_cons, Cursor.collectFields]
        simp only [place, isKey, name, ne_eq, not_true_eq_false, if_false, if_pos listed, fresh]
        exact collected
      · intro index other beyond found'
        rcases Nat.eq_or_lt_of_le beyond with rfl | later
        · cases held.symm.trans found'
          exact kept _ List.mem_cons_self
        · exact added index other (by rw [List.length_append]; exact later) found'

namespace Writer

/-- What stands in a buffer after the addresses of field names have been stored. -/
structure NamesStored (addresses : List Nat) (width : Width) (start : Nat) (writer after : Writer) :
    Prop where
  front : IsFront writer.bytes after.bytes
  names : after.names = writer.names
  later : writer.bytes.size < start
  behind : start ≤ after.bytes.size
  words : ∀ index address, addresses[index]? = some address →
    wordAt? after.bytes (start + index * width.bytes) width =
      some (start + index * width.bytes - address)

theorem putNames_stored {addresses : List Nat} (writer : Writer)
    (bounded : ∀ address ∈ addresses, address ≤ writer.bytes.size)
    (short : (writer.putNames addresses).1.bytes.size < UInt32.size) :
    ∃ width start, (writer.putNames addresses).2 = .reference (.typedVector .key) width start ∧
      NamesStored addresses width start writer (writer.putNames addresses).1 := by
  have wide := vectorWidth_wide writer.bytes.size 1 (addresses.map (Slot.reference .key .one))
  simp only [putNames] at short ⊢
  generalize Writer.vectorWidth writer.bytes.size 1 (addresses.map (Slot.reference .key .one)) =
    width at wide short ⊢
  have size : ((writer.align width).putWord width
      (addresses.map (Slot.reference .key .one)).length).bytes.size =
      writer.bytes.size + padding writer.bytes.size width.bytes + width.bytes := by
    rw [size_putWord, size_align]
  have filled := filled_putSlots width (addresses.map (Slot.reference .key .one))
    ((writer.align width).putWord width (addresses.map (Slot.reference .key .one)).length)
  refine ⟨width, _, rfl, ?_, filled.names, ?_, filled.front.size_le, ?_⟩
  · exact ((writer.front_align width).trans (front_putWord _ width _)).trans filled.front
  · have := width.bytes_pos
    omega
  · intro index address held
    have slot : (addresses.map (Slot.reference .key .one))[index]? =
        some (.reference .key .one address) := by
      rw [List.getElem?_map, held, Option.map_some]
    have bound := (List.getElem?_eq_some_iff.mp slot).1
    have inside : (1 + index) * width.bytes ≤
        (addresses.map (Slot.reference .key .one)).length * width.bytes :=
      Nat.mul_le_mul_right _ (by omega)
    have place : writer.bytes.size + padding writer.bytes.size width.bytes +
        (1 + index) * width.bytes = writer.bytes.size +
        padding writer.bytes.size width.bytes + width.bytes + index * width.bytes := by
      rw [Nat.add_mul, Nat.one_mul]
      omega
    have total := filled.size
    have small : Slot.Bounded writer.bytes.size (.reference .key .one address) :=
      bounded address (List.mem_of_getElem? held)
    have fits := small.word_fits (wide.2 index _ slot) (by omega)
    rw [place, ← size] at fits
    exact filled.words index _ slot fits

theorem NamesStored.key {addresses : List Nat} {width : Width} {start index address : Nat}
    {name : String} (stored : NamesStored addresses width start writer after)
    (inside : IsInside base after.bytes buffer) (held : addresses[index]? = some address)
    (plain : 0 ∉ Bytes.ofText name) (behind : address ≤ writer.bytes.size)
    (stands : NameAt writer.bytes address name) (length : Nat) :
    let element := Cursor.element
      { buffer, kind := .typedVector .key, width, address := base + start } length index
    element.kind = .key ∧ element.keyName = name := by
  have word := wordAt?_inside inside (stored.words index address held)
  rw [← Nat.add_assoc] at word
  have reached : Cursor.typedElement?
      { buffer, kind := .typedVector .key, width, address := base + start } .key index =
      some { buffer, kind := .key, width, address := base + address } := by
    have later := stored.later
    have distance : start + index * width.bytes - address ≤ base + start + index * width.bytes := by
      omega
    have back : base + start + index * width.bytes - (start + index * width.bytes - address) =
        base + address := by omega
    simp [Cursor.typedElement?, Cursor.ofPlace?, ElementKind.kind, Kind.isInline, Kind.direct,
      follow?, word, distance, back]
  simp only [Cursor.element, reached, Option.getD_some]
  exact ⟨trivial, NameAt.keyName plain ((stands.front stored.front).inside inside)⟩

/-- A field name in the buffer with the slot of the field's value. -/
def FieldMeans (writer : Writer) (stored : String × Nat × Slot) (field : String × Tree) : Prop :=
  stored.1 = field.1 ∧ stored.2.1 ≤ writer.bytes.size ∧
    NameAt writer.bytes stored.2.1 stored.1 ∧ stored.2.2.Means writer.bytes field.2

theorem FieldMeans.grow {stored : String × Nat × Slot} {field : String × Tree}
    (means : writer.FieldMeans stored field) (front : IsFront writer.bytes after.bytes) :
    after.FieldMeans stored field := by
  obtain ⟨same, behind, stands, slot⟩ := means
  exact ⟨same, Nat.le_trans behind front.size_le, stands.front front, slot.grow front⟩

/-- The words between the names of a map and its values: the distance to the names and their
width. -/
structure MapHead (place : Nat) (width namesWidth : Width) (names : Nat) (before start : Writer) :
    Prop where
  front : IsFront before.bytes start.bytes
  recorded : start.names = before.names
  size : start.bytes.size = place + 2 * width.bytes
  distance : wordAt? start.bytes place width = some (place - names)
  word : wordAt? start.bytes (place + width.bytes) width = some namesWidth.bytes

theorem mapHead {width namesWidth : Width} {names : Nat} {slot : Slot} (writer : Writer)
    (isNames : slot = .reference (.typedVector .key) namesWidth names)
    (behind : names ≤ writer.bytes.size)
    (wide : (slot.widthAt writer.bytes.size 0).code ≤ width.code)
    (short : writer.bytes.size + padding writer.bytes.size width.bytes < UInt32.size) :
    MapHead (writer.align width).bytes.size width namesWidth names writer
      ((putSlot width (writer.align width) slot).putWord width namesWidth.bytes) := by
  have aligned := writer.size_align width
  have bounded : slot.Bounded writer.bytes.size := by
    subst isNames
    exact behind
  have fits : slot.word (writer.align width).bytes.size < width.limit := by
    have word := bounded.word_fits wide (by omega)
    rwa [Nat.zero_mul, Nat.add_zero, ← aligned] at word
  have small : namesWidth.bytes < width.limit := by
    cases namesWidth <;> cases width <;> decide
  have placed : (putSlot width (writer.align width) slot).bytes.size =
      (writer.align width).bytes.size + width.bytes := size_putWord _ _ _
  have ended := front_putWord (putSlot width (writer.align width) slot) width namesWidth.bytes
  refine ⟨((writer.front_align width).trans (front_putWord _ _ _)).trans ended, rfl, ?_, ?_, ?_⟩
  · rw [size_putWord, placed]
    omega
  · have word := wordAt?_front ended (wordAt?_putWord fits)
    rw [isNames] at word ⊢
    exact word
  · rw [← placed]
    exact wordAt?_putWord small

theorem MapHead.names? {place names : Nat} {width namesWidth : Width} {before : Writer}
    (head : MapHead place width namesWidth names before start)
    (inside : IsInside base start.bytes buffer) (positive : 0 < place) (behind : names ≤ place) :
    Cursor.names?
      { buffer, kind := .map, width, address := base + (start.bytes.size + width.bytes) } =
      some { buffer, kind := .typedVector .key, width := namesWidth, address := base + names } := by
  have distance := wordAt?_inside inside head.distance
  have word := wordAt?_inside inside head.word
  have size := head.size
  have far : ¬ base + (start.bytes.size + width.bytes) ≤ 3 * width.bytes := by omega
  have first : base + (start.bytes.size + width.bytes) - 3 * width.bytes = base + place := by omega
  have second : base + (start.bytes.size + width.bytes) - 2 * width.bytes =
      base + (place + width.bytes) := by omega
  have near : place - names ≤ base + place := by omega
  have back : base + place - (place - names) = base + names := by omega
  simp [Cursor.names?, far, first, second, word, follow?, distance, near, back,
    Width.ofBytes?_bytes]

end Writer

theorem showFields_of_lookup {values : List (String × Cursor)} {fields : List (String × Tree)}
    (shown : ∀ name tree, (name, tree) ∈ fields →
      ∃ cursor, values.lookup name = some cursor ∧ cursor.Shows tree) :
    ∃ cursors, (fields.map Prod.fst).mapM (fun name => values.lookup name) = some cursors ∧
      Cursor.ShowFields cursors fields := by
  induction fields with
  | nil => exact ⟨[], rfl, trivial⟩
  | cons field rest ih =>
      obtain ⟨name, tree⟩ := field
      obtain ⟨cursor, first, shows⟩ := shown name tree List.mem_cons_self
      obtain ⟨cursors, others, show'⟩ :=
        ih fun name tree member => shown name tree (List.mem_cons_of_mem _ member)
      exact ⟨cursor :: cursors, by simp [first, others], shows, show'⟩

theorem member_of_forall₂ {α β : Type} {related : α → β → Prop} {left : List α} {right : List β}
    (matched : List.Forall₂ related left right) :
    (∀ value ∈ left, ∃ other ∈ right, related value other) ∧
      ∀ other ∈ right, ∃ value ∈ left, related value other := by
  induction matched with
  | nil => simp
  | cons head _ ih =>
      refine ⟨?_, ?_⟩
      · intro value member
        rcases List.mem_cons.mp member with rfl | member
        · exact ⟨_, List.mem_cons_self, head⟩
        · obtain ⟨other, held, pair⟩ := ih.1 value member
          exact ⟨other, List.mem_cons_of_mem _ held, pair⟩
      · intro other member
        rcases List.mem_cons.mp member with rfl | member
        · exact ⟨_, List.mem_cons_self, head⟩
        · obtain ⟨value, held, pair⟩ := ih.2 other member
          exact ⟨value, List.mem_cons_of_mem _ held, pair⟩

namespace Writer

/-- A map whose names and values are in place reads as the record of its fields. -/
theorem map_shows {fields : List (String × Tree)} {sorted : List (String × Nat × Slot)}
    {named : Writer} {namesWidth width : Width} {names place : Nat}
    (matched : ∀ entry ∈ sorted, ∃ field ∈ fields, writer.FieldMeans entry field)
    (covered : ∀ field ∈ fields, ∃ entry ∈ sorted, writer.FieldMeans entry field)
    (distinct : (sorted.map Prod.fst).Nodup)
    (plain : ∀ name ∈ fields.map Prod.fst, 0 ∉ Bytes.ofText name)
    (keys : NamesStored (sorted.map fun entry => entry.2.1) namesWidth names writer named)
    (head : MapHead place width namesWidth names named start)
    (stored : Stored width (sorted.map fun entry => entry.2.2) start after)
    (positive : 0 < place) (behind : names ≤ place)
    (length : sorted.length < width.limit)
    (fits : ∀ (index : Nat) (slot : Slot),
      (sorted.map fun entry => entry.2.2)[index]? = some slot →
      (∃ front, (slot.widthAt front (3 + index)).code ≤ width.code) ∧
        slot.word (start.bytes.size + width.bytes + index * width.bytes) < width.limit)
    (inside : IsInside base after.bytes buffer) :
    Cursor.Shows { buffer, kind := .map, width, address := base + (start.bytes.size + width.bytes) }
      (.record fields) := by
  have begun := stored.front.trans_inside inside
  have found := head.names? begun positive behind
  have size : (sorted.map fun entry => entry.2.2).length = sorted.length := List.length_map _
  have labels : (sorted.map Prod.fst).length = sorted.length := List.length_map _
  have counted : Cursor.storedLength?
      { buffer, kind := .map, width, address := base + (start.bytes.size + width.bytes) } =
      some (sorted.map Prod.fst).length := by
    rw [labels, ← size]
    exact stored.storedLength? inside (by rw [size]; exact length)
  have wanted : ∀ label ∈ sorted.map Prod.fst, label ∈ fields.map Prod.fst := by
    intro label member
    obtain ⟨entry, held, rfl⟩ := List.mem_map.mp member
    obtain ⟨field, kept, means⟩ := matched entry held
    exact List.mem_map.mpr ⟨field, kept, means.1.symm⟩
  have named : ∀ index label, (sorted.map Prod.fst)[index]? = some label →
      (Cursor.element
        { buffer, kind := .typedVector .key, width := namesWidth, address := base + names }
        (sorted.map Prod.fst).length index).kind = .key ∧
      (Cursor.element
        { buffer, kind := .typedVector .key, width := namesWidth, address := base + names }
        (sorted.map Prod.fst).length index).keyName = label := by
    intro index label held
    rw [List.getElem?_map, Option.map_eq_some_iff] at held
    obtain ⟨entry, held, rfl⟩ := held
    have member := List.mem_of_getElem? held
    obtain ⟨field, kept, means⟩ := matched entry member
    have address : (sorted.map fun entry => entry.2.1)[index]? = some entry.2.1 := by
      rw [List.getElem?_map, held, Option.map_some]
    exact keys.key (head.front.trans_inside begun) address
      (plain _ (wanted _ (List.mem_map_of_mem member))) means.2.1 means.2.2.1 _
  obtain ⟨values, collected, labelled, -, added⟩ :=
    collectFields_all
      { buffer, kind := .map, width, address := base + (start.bytes.size + width.bytes) }
      { buffer, kind := .typedVector .key, width := namesWidth, address := base + names }
      (show sorted.map Prod.fst = [] ++ sorted.map Prod.fst from rfl) distinct wanted named
      (show ([] : List (String × Cursor)).map Prod.fst = [].reverse from rfl)
  have unrepeated : (values.map Prod.fst).Nodup := by
    rw [labelled]
    exact (List.reverse_perm _).nodup_iff.mpr distinct
  have read : ∀ name tree, (name, tree) ∈ fields →
      ∃ cursor, values.lookup name = some cursor ∧ cursor.Shows tree := by
    intro name tree member
    obtain ⟨entry, held, means⟩ := covered _ member
    obtain ⟨index, place⟩ := List.mem_iff_getElem?.mp held
    have label : (sorted.map Prod.fst)[index]? = some name := by
      rw [List.getElem?_map, place, Option.map_some, means.1]
    have slot : (sorted.map fun entry => entry.2.2)[index]? = some entry.2.2 := by
      rw [List.getElem?_map, place, Option.map_some]
    obtain ⟨⟨front, wide⟩, word⟩ := fits index _ slot
    refine ⟨_, lookup_of_member unrepeated (added index name (Nat.zero_le _) label), ?_⟩
    have shows := stored.element_shows inside (show Kind.map.isUntyped = true from rfl) slot
      means.2.2.2 (keys.front.trans head.front) wide word
    rwa [size, ← labels] at shows
  obtain ⟨cursors, reads, shows⟩ := showFields_of_lookup read
  refine ⟨cursors, ?_, shows⟩
  simp only [Cursor.fields?, found, counted, Option.bind_eq_bind, Option.bind_some, collected]
  exact reads

def startMap (writer : Writer) (width namesWidth : Width) (names : Nat) : Writer :=
  (putSlot width (writer.align width)
    (.reference (.typedVector .key) namesWidth names)).putWord width namesWidth.bytes

theorem size_startMap (writer : Writer) (width namesWidth : Width) (names : Nat) :
    (writer.startMap width namesWidth names).bytes.size =
      writer.bytes.size + padding writer.bytes.size width.bytes + 2 * width.bytes := by
  rw [startMap, size_putWord, putSlot, size_putWord, size_align]
  omega

theorem putMap_puts {fields : List (String × Tree)} {sorted : List (String × Nat × Slot)}
    {named : Writer} {namesWidth width : Width} {names : Nat} (recorded : writer.Named)
    (matched : ∀ entry ∈ sorted, ∃ field ∈ fields, writer.FieldMeans entry field)
    (covered : ∀ field ∈ fields, ∃ entry ∈ sorted, writer.FieldMeans entry field)
    (distinct : (sorted.map Prod.fst).Nodup)
    (plain : ∀ name ∈ fields.map Prod.fst, 0 ∉ Bytes.ofText name)
    (keys : NamesStored (sorted.map fun entry => entry.2.1) namesWidth names writer named)
    (wide : (vectorWidth named.bytes.size 3 (sorted.map fun entry => entry.2.2)).code ≤ width.code)
    (near : ((Slot.reference (.typedVector .key) namesWidth names).widthAt
      named.bytes.size 0).code ≤ width.code)
    (short : ((named.startMap width namesWidth names).putVector .map width
      (sorted.map fun entry => entry.2.2)).1.bytes.size < UInt32.size) :
    Puts writer
      ((named.startMap width namesWidth names).putVector .map width
        (sorted.map fun entry => entry.2.2)).1
      ((named.startMap width namesWidth names).putVector .map width
        (sorted.map fun entry => entry.2.2)).2
      (.record fields) := by
  have stored := stored_putVector (named.startMap width namesWidth names) .map width
    (sorted.map fun entry => entry.2.2)
  have size := stored.size
  have begun := named.size_startMap width namesWidth names
  rw [List.length_map] at size
  have head : MapHead _ width namesWidth names named (named.startMap width namesWidth names) :=
    mapHead named rfl keys.behind near (by omega)
  have front := (keys.front.trans head.front).trans stored.front
  have later := keys.later
  have behind := keys.behind
  have place := named.size_align width
  refine ⟨front, recorded.grow (stored.names.trans (head.recorded.trans keys.names)) front, ?_⟩
  rw [putVector_reference]
  refine ⟨rfl, by omega, ?_⟩
  intro base buffer grown
  have needs := vectorWidth_wide named.bytes.size 3 (sorted.map fun entry => entry.2.2)
  have length := Width.ofNumber_fits (Width.word_of_short (by rw [List.length_map]; omega))
    (Nat.le_trans needs.1 wide)
  rw [List.length_map] at length
  refine map_shows matched covered distinct plain keys head stored (by omega) (by omega) length
    ?_ grown
  intro index slot found
  have asked := Nat.le_trans (needs.2 index slot found) wide
  refine ⟨⟨_, asked⟩, ?_⟩
  have bound := (List.getElem?_eq_some_iff.mp found).1
  rw [List.length_map] at bound
  have inside : (3 + index) * width.bytes ≤ (2 + sorted.length) * width.bytes :=
    Nat.mul_le_mul_right _ (by omega)
  rw [Nat.add_mul 2] at inside
  have bounded : slot.Bounded named.bytes.size := by
    obtain ⟨entry, held, rfl⟩ := List.mem_map.mp (List.mem_of_getElem? found)
    obtain ⟨field, -, means⟩ := matched entry held
    exact (means.2.2.2.grow keys.front).bounded
  have word := bounded.word_fits asked (by omega)
  have position : named.bytes.size + padding named.bytes.size width.bytes +
      (3 + index) * width.bytes =
      (named.startMap width namesWidth names).bytes.size + width.bytes + index * width.bytes := by
    rw [begun, Nat.add_mul]
    omega
  rwa [position] at word

theorem front_putNames (writer : Writer) (addresses : List Nat) :
    IsFront writer.bytes (writer.putNames addresses).1.bytes := by
  unfold putNames
  exact (front_align _ _).trans ((front_putWord _ _ _).trans (filled_putSlots _ _ _).front)

theorem putNames_front_putRecord (writer : Writer) (fields : List (String × Nat × Slot)) :
    IsFront (writer.putNames ((sortFields fields).map fun field => field.2.1)).1.bytes
      (writer.putRecord fields).1.bytes := by
  unfold putRecord
  refine IsFront.trans ?_ (stored_putVector _ .map _ _).front
  exact IsFront.trans (front_align _ _) (IsFront.trans (front_putWord _ _ _) (front_putWord _ _ _))

/-- Fields whose values are in place are put together to a slot that stands for the record. -/
theorem putRecord_puts {fields : List (String × Tree)} {placed : List (String × Nat × Slot)}
    (recorded : writer.Named) (matched : List.Forall₂ writer.FieldMeans placed fields)
    (distinct : (fields.map Prod.fst).Nodup)
    (plain : ∀ name ∈ fields.map Prod.fst, 0 ∉ Bytes.ofText name)
    (short : (writer.putRecord placed).1.bytes.size < UInt32.size) :
    Puts writer (writer.putRecord placed).1 (writer.putRecord placed).2 (.record fields) := by
  have sorts := sortFields_perm placed
  obtain ⟨members, covers⟩ := member_of_forall₂ matched
  have labels : placed.map Prod.fst = fields.map Prod.fst := by
    clear short sorts members covers distinct plain
    induction matched with
    | nil => rfl
    | cons head _ ih => rw [List.map_cons, List.map_cons, head.1, ih]
  have unique : ((sortFields placed).map Prod.fst).Nodup := by
    rw [(sorts.map Prod.fst).nodup_iff, labels]
    exact distinct
  have bounded : ∀ address ∈ (sortFields placed).map fun entry => entry.2.1,
      address ≤ writer.bytes.size := by
    intro address member
    obtain ⟨entry, held, rfl⟩ := List.mem_map.mp member
    obtain ⟨field, -, means⟩ := members entry (sorts.mem_iff.mp held)
    exact means.2.1
  have middle := (putNames_front_putRecord writer placed).size_le
  obtain ⟨namesWidth, address, isNames, keys⟩ :=
    putNames_stored writer bounded (Nat.lt_of_le_of_lt middle short)
  simp only [putRecord, isNames] at short ⊢
  refine putMap_puts recorded ?_ ?_ unique plain keys ?_ ?_ short
  · intro entry member
    exact members entry (sorts.mem_iff.mp member)
  · intro field member
    obtain ⟨entry, held, means⟩ := covers field member
    exact ⟨entry, sorts.mem_iff.mpr held, means⟩
  · rw [Width.code_max]
    exact Nat.le_max_left _ _
  · rw [Width.code_max]
    exact Nat.le_max_right _ _

end Writer

end ClaimStore.Flexbuffer
