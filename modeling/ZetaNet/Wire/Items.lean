import ZetaNet.Packet.Types
import ZetaNet.Wire.Reading
import ZetaNet.Wire.Writing

/-!
# Messages written and read back

A message is a sequence of writes. The bytes of a writer that took it are the wire forms in
their order, the reads of the same shapes in the same order give the values back, and they do
not all succeed on a message whose end is missing.
-/

namespace ZetaNet

open Wire Checks Formats

/-- One write of a message, with its argument. -/
inductive Item : Type 1
  | put {T : Type} [WireScalar T] (value : T)
  | putS (bytes : Bytes)
  | putList (bytes : Bytes)

/-- The read that matches a write: its type, or the length of the vector passed to it. -/
inductive Shape : Type 1
  | read (T : Type) [WireScalar T]
  | readS (size : Nat)
  | readList

/-- The read of a shape, with what it read. -/
def Shape.readItem : Shape → SpanReader → Except (Stop Unit) (Item × SpanReader)
  | @Shape.read T _, reader => (reader.read T).map fun (value, next) => (.put value, next)
  | .readS size, reader => (reader.readS size).map fun (bytes, next) => (.putS bytes, next)
  | .readList, reader => reader.readList.map fun (bytes, next) => (.putList bytes, next)

namespace Item

def shape : Item → Shape
  | @put T _ _ => .read T
  | putS bytes => .readS bytes.length
  | putList _ => .readList

/-- The wire form of a write. -/
def encoding : Item → Bytes
  | put value => WireScalar.encode value
  | putS bytes => bytes
  | putList bytes => PacketWriter.listBytes bytes

def write (allocator : Allocator) : Item → AllocatedWriter → Option (Bool × AllocatedWriter)
  | put value, writer => writer.put allocator value
  | putS bytes, writer => writer.putS allocator bytes
  | putList bytes, writer => writer.putList allocator bytes

/-- A list has at most 65535 bytes. -/
def Listable : Item → Prop
  | put _ => True
  | putS _ => True
  | putList bytes => bytes.length ≤ 65535

theorem length_listBytes (bytes : Bytes) :
    (PacketWriter.listBytes bytes).length = 2 + bytes.length := by
  rw [PacketWriter.listBytes, List.length_append, length_leU16]

/-- Every write that fits appends its wire form. -/
theorem write_appends (allocator : Allocator) {writer : AllocatedWriter} {item : Item}
    (hlist : item.Listable) (hpos : 1 ≤ writer.capacity)
    (hhalf : writer.data.length + item.encoding.length ≤ 2 ^ 63) :
    AllocatedWriter.Appends (item.write allocator writer) writer item.encoding := by
  cases item with
  | put value =>
      rw [write, AllocatedWriter.put_eq_putS]
      exact AllocatedWriter.putS_appends allocator hpos hhalf
  | putS bytes => exact AllocatedWriter.putS_appends allocator hpos hhalf
  | putList bytes =>
      rw [encoding, length_listBytes] at hhalf
      exact AllocatedWriter.putList_appends allocator hpos hlist hhalf

/-- Every item is read where it comes next. -/
theorem readItem_at {item : Item} {reader : SpanReader} {front back : Bytes}
    (hlist : item.Listable) (h : reader.At front (item.encoding ++ back)) :
    ∃ next, item.shape.readItem reader = .ok (item, next) ∧
      next.At (front ++ item.encoding) back := by
  cases item with
  | put value =>
      obtain ⟨next, hread, hnext⟩ := h.read_eq
      exact ⟨next, by rw [shape, Shape.readItem, hread]; rfl, hnext⟩
  | putS bytes =>
      rw [encoding] at h ⊢
      obtain ⟨next, hread, hnext⟩ := h.readS_eq
      exact ⟨next, by rw [shape, Shape.readItem, hread]; rfl, hnext⟩
  | putList bytes =>
      obtain ⟨next, hread, hnext⟩ := h.readList_eq hlist
      exact ⟨next, by rw [shape, Shape.readItem, hread]; rfl, hnext⟩

/-- No item is read where its end is missing. -/
theorem readItem_cutOff {item : Item} {reader : SpanReader} {front part : Bytes}
    (hlist : item.Listable) (hlength : item.encoding.length ≤ 2 ^ 62)
    (hcut : CutOff part item.encoding) (h : reader.At front part) :
    item.shape.readItem reader = .error (.exit ()) := by
  have hshort := hcut.length_lt
  cases item with
  | put value =>
      rw [encoding, WireScalar.length_encode] at hshort
      rw [shape, Shape.readItem, h.read_cutOff hshort]
      rfl
  | putS bytes =>
      rw [encoding] at hshort hlength
      rw [shape, Shape.readItem, h.readS_cutOff hshort hlength]
      rfl
  | putList bytes =>
      rw [shape, Shape.readItem, h.readList_cutOff hlist hcut]
      rfl

/-- The writes and reads as a format. -/
def format : Format Item Shape UInt8 SpanReader (Stop Unit) where
  shape := shape
  encoding := encoding
  read := Shape.readItem
  refusal := .exit ()
  At := SpanReader.At
  Good item := item.Listable ∧ item.encoding.length ≤ 2 ^ 62
  read_at hgood h := readItem_at hgood.1 h
  read_cutOff hgood hcut h := readItem_cutOff hgood.1 hgood.2 hcut h

/-- The writes of a message in their order, with what each returned. -/
def writeAll (allocator : Allocator) :
    List Item → AllocatedWriter → Option (List Bool × AllocatedWriter)
  | [], writer => some ([], writer)
  | item :: items, writer => do
      let (result, writer) ← item.write allocator writer
      let (results, writer) ← writeAll allocator items writer
      return (result :: results, writer)

/-- A message appends its wire forms, however often the buffer grows on the way. -/
theorem writeAll_appends (allocator : Allocator) {items : List Item} {writer : AllocatedWriter}
    (hlists : ∀ item ∈ items, item.Listable) (hpos : 1 ≤ writer.capacity)
    (hhalf : writer.data.length + (format.encodingAll items).length ≤ 2 ^ 63) :
    ∃ last, writeAll allocator items writer = some (List.replicate items.length true, last) ∧
      writer.capacity ≤ last.capacity ∧ last.data = writer.data ++ format.encodingAll items := by
  induction items generalizing writer with
  | nil => exact ⟨writer, rfl, UInt64.le_refl _, (List.append_nil _).symm⟩
  | cons item items ih =>
      rw [Format.encodingAll_cons, List.length_append] at hhalf
      obtain ⟨next, hwrite, hlarger, hdata⟩ :=
        write_appends allocator (hlists item List.mem_cons_self) hpos
          (le_trans (Nat.add_le_add_left (Nat.le_add_right _ _) _) hhalf)
      obtain ⟨last, hrest, hlargest, hlast⟩ :=
        ih (fun other hmem => hlists other (List.mem_cons_of_mem item hmem))
          (UInt64.le_trans hpos hlarger)
          (by rw [hdata, List.length_append, Nat.add_assoc]; exact hhalf)
      refine ⟨last, ?_, UInt64.le_trans hlarger hlargest, ?_⟩
      · rw [writeAll, hwrite, Option.bind_eq_bind, Option.bind_some]
        dsimp only
        rw [hrest]
        rfl
      · rw [hlast, hdata, Format.encodingAll_cons, List.append_assoc]
        rfl

/-- The same write to the writer without allocations. -/
def into : Item → PacketWriter → PacketWriter
  | put value, writer => writer.putS (WireScalar.encode value)
  | putS bytes, writer => writer.putS bytes
  | putList bytes, writer => writer.putList bytes

theorem data_into {item : Item} (hlist : item.Listable) (writer : PacketWriter) :
    (item.into writer).data = writer.data ++ item.encoding := by
  cases item with
  | put value => rfl
  | putS bytes => rfl
  | putList bytes => exact writer.data_putList hlist

theorem data_foldl_into {items : List Item} (hlists : ∀ item ∈ items, item.Listable)
    (writer : PacketWriter) :
    (items.foldl (fun writer item => item.into writer) writer).data =
      writer.data ++ format.encodingAll items := by
  induction items generalizing writer with
  | nil => exact (List.append_nil _).symm
  | cons item items ih =>
      have hitem := hlists item List.mem_cons_self
      rw [List.foldl_cons, ih fun other hmem => hlists other (List.mem_cons_of_mem item hmem),
        data_into hitem, List.append_assoc, Format.encodingAll_cons]
      rfl

/-! ## Whole messages -/

section Message

variable {items : List Item} (hlists : ∀ item ∈ items, item.Listable)
include hlists

/-- What a new writer holds after a message. -/
theorem writeAll_new (allocator : Allocator) {initialSize : UInt64} (hinitial : 1 ≤ initialSize)
    (hhalf : (format.encodingAll items).length ≤ 2 ^ 63) :
    ∃ writer, writeAll allocator items (.new allocator initialSize) =
        some (List.replicate items.length true, writer) ∧
      initialSize ≤ writer.capacity ∧ writer.data = format.encodingAll items := by
  have hpos : 1 ≤ (AllocatedWriter.new allocator initialSize).capacity := hinitial
  exact writeAll_appends allocator hlists hpos ((Nat.zero_add _).le.trans hhalf)

/-- The writer without allocations holds what the allocated writer holds. -/
theorem writeAll_refines (allocator : Allocator) {initialSize : UInt64}
    (hinitial : 1 ≤ initialSize) (hhalf : (format.encodingAll items).length ≤ 2 ^ 63) :
    ∃ writer, writeAll allocator items (.new allocator initialSize) =
        some (List.replicate items.length true, writer) ∧
      writer.data =
        (items.foldl (fun writer item => item.into writer) PacketWriter.empty).data := by
  obtain ⟨writer, hwriter, -, hdata⟩ := writeAll_new hlists allocator hinitial hhalf
  refine ⟨writer, hwriter, hdata.trans ?_⟩
  rw [data_foldl_into hlists]
  rfl

theorem format_good (htotal : (format.encodingAll items).length < 2 ^ 62) :
    ∀ item ∈ items, format.Good item := by
  intro item hmem
  exact ⟨hlists item hmem, (format.length_encoding_le hmem).trans htotal.le⟩

/-- The matching reads on the bytes of a message. -/
theorem readAll_encodingAll (htotal : (format.encodingAll items).length < 2 ^ 62) :
    ∃ reader, format.readAll (items.map shape) (.ofBytes (format.encodingAll items)) =
        .ok (items, reader) ∧ reader.position.toNat = (format.encodingAll items).length := by
  have hstart := SpanReader.at_ofBytes htotal
  rw [← List.append_nil (format.encodingAll items)] at hstart
  obtain ⟨reader, hread, hend⟩ := Format.readAll_at (format_good hlists htotal) hstart
  rw [List.append_nil] at hread
  refine ⟨reader, hread, ?_⟩
  rw [hend.position_eq, List.nil_append]

/-- The matching reads on less. -/
theorem readAll_take (htotal : (format.encodingAll items).length < 2 ^ 62) {k : Nat}
    (hk : k < (format.encodingAll items).length) :
    format.readAll (items.map shape) (.ofBytes ((format.encodingAll items).take k)) =
      .error (.exit ()) := by
  have hcut := CutOff.take hk
  have hstart := SpanReader.at_ofBytes (hcut.length_lt.trans htotal)
  exact Format.readAll_cutOff (format_good hlists htotal) hcut hstart

end Message

end Item

/-- `PacketReader` inverts `PacketWriter`: the growth loop ends with room enough, the data is the
concatenation of the wire forms, the matching reads give the values back and end at the end of
the data, and on less than the data one of them returns false. -/
theorem readAll_writeAll (allocator : Allocator) {initialSize : UInt64} {items : List Item}
    (hinitial : 1 ≤ initialSize) (hlists : ∀ item ∈ items, item.Listable)
    (htotal : (items.flatMap Item.encoding).length < 2 ^ 62) :
    (∀ (writer : AllocatedWriter) (required : UInt64), 1 ≤ writer.capacity →
      required.toNat ≤ 2 ^ 63 →
        ∃ next, writer.ensureCapacity allocator required = some next ∧
          required ≤ next.capacity) ∧
    ∃ writer, Item.writeAll allocator items (.new allocator initialSize) =
        some (List.replicate items.length true, writer) ∧
      initialSize ≤ writer.capacity ∧
      writer.data = items.flatMap Item.encoding ∧
      (∃ reader, Item.format.readAll (items.map Item.shape) (.ofBytes writer.data) =
          .ok (items, reader) ∧ reader.position.toNat = writer.data.length) ∧
      ∀ k < writer.data.length,
        Item.format.readAll (items.map Item.shape) (.ofBytes (writer.data.take k)) =
          .error (.exit ()) := by
  refine ⟨fun writer required hpos hhalf => ?_, ?_⟩
  · obtain ⟨next, hnext, hroom, -⟩ := AllocatedWriter.ensureCapacity_spec allocator hpos hhalf
    exact ⟨next, hnext, hroom⟩
  have hhalf : (Item.format.encodingAll items).length ≤ 2 ^ 63 := htotal.le.trans (by decide)
  obtain ⟨writer, hwriter, hlarger, hdata⟩ :=
    Item.writeAll_new hlists allocator hinitial hhalf
  refine ⟨writer, hwriter, hlarger, hdata, ?_, ?_⟩
  · rw [hdata]
    exact Item.readAll_encodingAll hlists htotal
  · intro k hk
    rw [hdata] at hk ⊢
    exact Item.readAll_take hlists htotal hk

/-- A signed integer, an enumeration, an empty list, a vector and a list. -/
def Item.sample : List Item :=
  [.put (-2 : Int16),
    @Item.put PacketChannelType (.ofEnum UInt8 PacketChannelType.toU8 PacketChannelType.ofU8
      PacketChannelType.ofU8_toU8) .data,
    .putList [], .putS [9], .putList [7, 8]]

/-- The message from a single byte of room on. -/
theorem readAll_writeAll_sample :
    ∃ writer, Item.writeAll (.filled 0xCD) Item.sample (.new (.filled 0xCD) 1) =
        some ([true, true, true, true, true], writer) ∧
      writer.data = [0xFE, 0xFF, 1, 0, 0, 9, 2, 0, 7, 8] ∧
      (∃ reader, Item.format.readAll (Item.sample.map Item.shape) (.ofBytes writer.data) =
          .ok (Item.sample, reader) ∧ reader.position.toNat = 10) ∧
      ∀ k < 10, Item.format.readAll (Item.sample.map Item.shape) (.ofBytes (writer.data.take k)) =
        .error (.exit ()) := by
  have hlists : ∀ item ∈ Item.sample, item.Listable := by
    simp [Item.sample, Item.Listable]
  obtain ⟨-, writer, hwriter, -, hdata, ⟨reader, hread, hend⟩, hcut⟩ :=
    readAll_writeAll (.filled 0xCD) (by decide : (1 : UInt64) ≤ 1) hlists (by decide)
  have hbytes : writer.data = [0xFE, 0xFF, 1, 0, 0, 9, 2, 0, 7, 8] := hdata
  have hlength : writer.data.length = 10 := congrArg List.length hbytes
  rw [hlength] at hend hcut
  exact ⟨writer, hwriter, hbytes, ⟨reader, hread, hend⟩, hcut⟩

end ZetaNet
