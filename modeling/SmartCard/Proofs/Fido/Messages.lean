/-
The messages of the client PIN command, and the keys in them, come back
from their maps as they were, and the maps are canonical.

# A message as a row of members

Writer and reader of a message are two tables of the same labels. Here
there is a third, `Members`: a label for each member, and the member's value
where it is present. What the writer makes is the entries of that row
(`toCbor_eq` of each kind), and a label of the row is looked up as the
member that stands there (`lookup_entriesIn`), so the reader is compared
with the row and not with the writer. All that has to be known of the labels
is that they ascend (`Ordered`).
-/
import SmartCard.Fido.PinMessage
import SmartCard.Proofs.Cbor.Canonical
import SmartCard.Proofs.Cbor.RoundTrip

namespace SmartCard.Fido

open Cbor (Before Canonical Fits lookup)

-- ======================================================== rows of members

/-- The members of a message: labels, and values where there are any. -/
abbrev Members := List (Int × Option Cbor)

/-- The entries of the members that are present. -/
def entriesIn (members : Members) : List (Cbor × Cbor) :=
  members.flatMap fun m => member m.1 m.2

/-- The labels of the members that are present. -/
def labelsIn (members : Members) : List Int :=
  (members.filter fun m => m.2.isSome).map Prod.fst

/-- Labels that ascend in the canonical order, each a number of 64 bits. -/
structure Ordered (labels : List Int) : Prop where
  range : ∀ k ∈ labels,
    -0x8000000000000000 ≤ k ∧ k < 0x8000000000000000
  ascending : labels.Pairwise fun j k => Before (.ofInt j) (.ofInt k)

instance (labels : List Int) : Decidable (Ordered labels) :=
  decidable_of_iff
    ((∀ k ∈ labels, -0x8000000000000000 ≤ k ∧ k < 0x8000000000000000)
      ∧ labels.Pairwise fun j k => Before (.ofInt j) (.ofInt k))
    ⟨fun h => ⟨h.1, h.2⟩, fun h => ⟨h.range, h.ascending⟩⟩

theorem int?_ofInt {k : Int} (hlow : -0x8000000000000000 ≤ k)
    (hhigh : k < 0x8000000000000000) : (Cbor.ofInt k).int? = some k := by
  unfold Cbor.ofInt
  by_cases h : 0 ≤ k
  · rw [if_pos h]
    show some ((UInt64.ofNat k.toNat).toNat : Int) = some k
    rw [UInt64.toNat_ofNat']
    congr 1
    omega
  · rw [if_neg h]
    show some (-1 - ((UInt64.ofNat (-1 - k).toNat).toNat : Int)) = some k
    rw [UInt64.toNat_ofNat']
    congr 1
    omega

/-- In entries behind others, a label is looked up in the front ones
first. -/
theorem lookup_append (front back : List (Cbor × Cbor)) (key : Int) :
    lookup (front ++ back) key = (lookup front key).or (lookup back key) := by
  unfold lookup
  rw [List.find?_append, Option.map_or]

/-- In a single member its own label is found, and no other. -/
theorem lookup_member {label : Int} (hlow : -0x8000000000000000 ≤ label)
    (hhigh : label < 0x8000000000000000) (value : Option Cbor) (key : Int) :
    lookup (member label value) key = if label = key then value else none := by
  unfold lookup member
  cases value with
  | none => simp
  | some v =>
      have hint := int?_ofInt hlow hhigh
      by_cases h : label = key
      · subst h
        simp [hint]
      · simp [hint, h]

theorem ordered_tail {label : Int} {labels : List Int}
    (h : Ordered (label :: labels)) : Ordered labels where
  range := fun k hk => h.range k (List.mem_cons_of_mem _ hk)
  ascending := (List.pairwise_cons.mp h.ascending).2

/-- An ordered row has a label once. -/
theorem ordered_head {label : Int} {labels : List Int}
    (h : Ordered (label :: labels)) : label ∉ labels := by
  intro hmem
  exact ((List.pairwise_cons.mp h.ascending).1 label hmem).ne rfl

/-- A label that is not in the row is not found. -/
theorem lookup_missing {members : Members}
    (h : Ordered (members.map Prod.fst)) {key : Int}
    (hkey : key ∉ members.map Prod.fst) : lookup (entriesIn members) key = none := by
  induction members with
  | nil => rfl
  | cons m members ih =>
      have hrange := h.range m.1 List.mem_cons_self
      rw [List.map_cons, List.mem_cons, not_or] at hkey
      have hrest := ih (ordered_tail h) hkey.2
      unfold entriesIn at hrest ⊢
      rw [List.flatMap_cons, lookup_append, hrest,
        lookup_member hrange.1 hrange.2, if_neg (Ne.symm hkey.1)]
      rfl

/-- A label is looked up as the member that stands there. -/
theorem lookup_entriesIn {members : Members}
    (h : Ordered (members.map Prod.fst)) {label : Int} {value : Option Cbor}
    (hmem : (label, value) ∈ members) :
    lookup (entriesIn members) label = value := by
  induction members with
  | nil => cases hmem
  | cons m members ih =>
      have hrange := h.range m.1 List.mem_cons_self
      have hsplit : lookup (entriesIn (m :: members)) label
          = (if m.1 = label then m.2 else none).or
            (lookup (entriesIn members) label) := by
        unfold entriesIn
        rw [List.flatMap_cons, lookup_append, lookup_member hrange.1 hrange.2]
      rw [hsplit]
      rcases List.mem_cons.mp hmem with rfl | hin
      · -- the labels behind it are different ones
        rw [if_pos rfl, lookup_missing (ordered_tail h) (ordered_head h),
          Option.or_none]
      · have hne : m.1 ≠ label := by
          intro heq
          refine ordered_head h ?_
          rw [heq]
          exact List.mem_map.mpr ⟨_, hin, rfl⟩
        rw [if_neg hne, Option.none_or]
        exact ih (ordered_tail h) hin

/-- There is an entry for each label that is present, and for no other. -/
theorem keys_entriesIn (members : Members) :
    (entriesIn members).map Prod.fst = (labelsIn members).map Cbor.ofInt := by
  induction members with
  | nil => rfl
  | cons m members ih =>
      obtain ⟨label, value⟩ := m
      unfold entriesIn labelsIn at ih ⊢
      rw [List.flatMap_cons, List.map_append, ih]
      cases value <;> rfl

/-- Every entry is a member that is present, under its label. -/
theorem mem_entriesIn {members : Members} {entry : Cbor × Cbor}
    (h : entry ∈ entriesIn members) :
    ∃ label, entry.1 = .ofInt label ∧ (label, some entry.2) ∈ members := by
  obtain ⟨⟨label, value⟩, hm, hentry⟩ := List.mem_flatMap.mp h
  cases value with
  | none => cases hentry
  | some v =>
      rw [List.mem_singleton.mp hentry]
      exact ⟨label, rfl, hm⟩

/-- Leaving members out does not disturb the order of the others. -/
theorem ascending_entriesIn {members : Members}
    (h : Ordered (members.map Prod.fst)) :
    (entriesIn members).Pairwise fun a b => Before a.1 b.1 := by
  have hsub : (labelsIn members).Sublist (members.map Prod.fst) :=
    List.filter_sublist.map Prod.fst
  have hlabels := List.pairwise_map.mpr (h.ascending.sublist hsub)
  rw [← keys_entriesIn] at hlabels
  exact List.pairwise_map.mp hlabels

/-- So the map of an ordered row is canonical, if the values are. -/
theorem canonical_entriesIn {members : Members}
    (h : Ordered (members.map Prod.fst))
    (hvalues : ∀ m ∈ members, ∀ v ∈ m.2, Canonical v) :
    Canonical (.map (entriesIn members)) := by
  refine .map (ascending_entriesIn h) ?_ ?_
  · intro entry hentry
    obtain ⟨label, hkey, -⟩ := mem_entriesIn hentry
    rw [hkey]
    exact Cbor.canonical_ofInt label
  · intro entry hentry
    obtain ⟨label, -, hm⟩ := mem_entriesIn hentry
    exact hvalues _ hm entry.2 rfl

theorem fits_ofInt (depth : Nat) (k : Int) : Fits depth (.ofInt k) := by
  unfold Cbor.ofInt
  split
  · exact .unsigned _
  · exact .negative _

/-- There are at most as many entries as members. -/
theorem length_entriesIn_le (members : Members) :
    (entriesIn members).length ≤ members.length := by
  have hkeys := congrArg List.length (keys_entriesIn members)
  rw [List.length_map, List.length_map, labelsIn, List.length_map] at hkeys
  rw [hkeys]
  exact List.length_filter_le _ _

/-- The map of a row can be read back, if the values can one level further
down. -/
theorem fits_entriesIn {depth : Nat} {members : Members}
    (hlen : members.length < Cbor.headLimit)
    (hvalues : ∀ m ∈ members, ∀ v ∈ m.2, Fits depth v) :
    Fits (depth + 1) (.map (entriesIn members)) := by
  have hle := length_entriesIn_le members
  refine .map (by omega) ?_ ?_
  · intro entry hentry
    obtain ⟨label, hkey, -⟩ := mem_entriesIn hentry
    rw [hkey]
    exact fits_ofInt depth label
  · intro entry hentry
    obtain ⟨label, -, hm⟩ := mem_entriesIn hentry
    exact hvalues _ hm entry.2 rfl

-- ================================================================ members

/-- A member that was written by one function and is read by another that
undoes it, present or not. -/
theorem read_member {α : Type} (write : α → Cbor) {read : Cbor → Option α}
    (hread : ∀ a, read (write a) = some a) {members : Members} {label : Int}
    {value : Option α} (h : Ordered (members.map Prod.fst))
    (hmem : (label, value.map write) ∈ members) :
    (lookup (entriesIn members) label).bind read = value := by
  rw [lookup_entriesIn h hmem]
  cases value with
  | none => rfl
  | some a => exact hread a

theorem octet?_octetValue (x : UInt8) : (octetValue x).octet? = some x := by
  have hlt := x.toNat_lt
  have hint : (octetValue x).int? = some (x.toNat : Int) :=
    int?_ofInt (by omega) (by omega)
  unfold Cbor.octet?
  rw [hint]
  have hrange : (0 ≤ (x.toNat : Int) && (x.toNat : Int) < 256) = true := by
    simp only [Bool.and_eq_true, decide_eq_true_eq]
    omega
  simp only [hrange, if_true, Int.toNat_natCast, UInt8.ofNat_toNat]

theorem entriesOf_map (entries : List (Cbor × Cbor)) :
    entriesOf (.map entries) = .ok entries := rfl

theorem ok_bind {α β : Type} (a : α) (f : α → Except Error β) :
    (Except.ok a >>= f) = f a := rfl

-- ==================================================================== keys

namespace PublicKey

/-- The members of a key, all present. -/
def members (k : PublicKey) : Members :=
  [(keyType, some (.ofInt ec2)), (algorithm, some (.ofInt ecdhHkdf256)),
    (curve, some (.ofInt p256)), (xCoordinate, some (.bytes k.x.toList)),
    (yCoordinate, some (.bytes k.y.toList))]

/-- What is written of a key is its row. -/
theorem toCbor_eq (k : PublicKey) : k.toCbor = .map (entriesIn k.members) := rfl

/-- The labels of keys ascend: first the positive ones, then the
negative. -/
theorem ordered (k : PublicKey) : Ordered (k.members.map Prod.fst) := by
  show Ordered [1, 3, -1, -2, -3]
  decide

/-- A coordinate has the right length, and is read as it was written. -/
theorem coordinate_read {entries : List (Cbor × Cbor)} {label : Int}
    {c : Octets 32} (h : lookup entries label = some (.bytes c.toList)) :
    coordinate entries label = .ok c := by
  have hbytes : Octets.ofBytes? 32 c.toList = some c := by
    unfold Octets.ofBytes?
    rw [if_pos Vector.length_toList, Octets.ofBytes_toList]
  unfold coordinate
  rw [h]
  simp only [Option.bind_some, Cbor.bytes?, hbytes]

/-- A key is read from its row, member by member. -/
theorem ofCbor_toCbor (k : PublicKey) : ofCbor k.toCbor = .ok k := by
  have htype : lookup (entriesIn k.members) keyType = some (.ofInt ec2) :=
    lookup_entriesIn k.ordered (by simp [members])
  have hcurve : lookup (entriesIn k.members) curve = some (.ofInt p256) :=
    lookup_entriesIn k.ordered (by simp [members])
  have hx : lookup (entriesIn k.members) xCoordinate
      = some (.bytes k.x.toList) :=
    lookup_entriesIn k.ordered (by simp [members])
  have hy : lookup (entriesIn k.members) yCoordinate
      = some (.bytes k.y.toList) :=
    lookup_entriesIn k.ordered (by simp [members])
  have hec2 : (Cbor.ofInt ec2).signed? = some ec2 := by decide
  have hp256 : (Cbor.ofInt p256).signed? = some p256 := by decide
  rw [toCbor_eq]
  unfold ofCbor
  rw [entriesOf_map, ok_bind, htype, hcurve, coordinate_read hx,
    coordinate_read hy, Option.bind_some, Option.bind_some, hec2, hp256]
  rfl

end PublicKey

-- =============================================================== requests

namespace PinRequest

/-- The members of a request. -/
def members (r : PinRequest) : Members :=
  [(0x01, some (octetValue r.protocol)),
    (0x02, some (octetValue r.subCommand)),
    (0x03, r.keyAgreement.map PublicKey.toCbor),
    (0x04, r.authParam.map .bytes),
    (0x05, r.newPinEnc.map .bytes),
    (0x06, r.pinHashEnc.map .bytes),
    (0x09, r.permissions.map fun p => octetValue p.bits),
    (0x0A, r.rpId.map .text)]

theorem toCbor_eq (r : PinRequest) : r.toCbor = .map (entriesIn r.members) := by
  simp [toCbor, entriesIn, members, member]

/-- The labels of requests ascend, with two numbers that are not used. -/
theorem ordered (r : PinRequest) : Ordered (r.members.map Prod.fst) := by
  show Ordered [1, 2, 3, 4, 5, 6, 9, 10]
  decide

end PinRequest

/-- A key in a message is read like a key by itself, and may be absent. -/
theorem read_keyMember {members : Members} {label : Int}
    {key : Option PublicKey} (h : Ordered (members.map Prod.fst))
    (hmem : (label, key.map PublicKey.toCbor) ∈ members) :
    keyMember (lookup (entriesIn members) label) = .ok key := by
  rw [lookup_entriesIn h hmem]
  cases key with
  | none => rfl
  | some k =>
      show (PublicKey.ofCbor k.toCbor).map some = _
      rw [PublicKey.ofCbor_toCbor]
      rfl

namespace PinRequest

/-- A request is read from its row, with whatever is absent from it. -/
theorem ofCbor_toCbor (r : PinRequest) : ofCbor r.toCbor = .ok r := by
  have h1 : (lookup (entriesIn r.members) 0x01).bind Cbor.octet?
      = some r.protocol :=
    read_member octetValue octet?_octetValue r.ordered (by simp [members])
  have h2 : (lookup (entriesIn r.members) 0x02).bind Cbor.octet?
      = some r.subCommand :=
    read_member octetValue octet?_octetValue r.ordered (by simp [members])
  have h3 : keyMember (lookup (entriesIn r.members) 0x03)
      = .ok r.keyAgreement :=
    read_keyMember r.ordered (by simp [members])
  have h4 : (lookup (entriesIn r.members) 0x04).bind Cbor.bytes?
      = r.authParam :=
    read_member .bytes (fun _ => rfl) r.ordered (by simp [members])
  have h5 : (lookup (entriesIn r.members) 0x05).bind Cbor.bytes?
      = r.newPinEnc :=
    read_member .bytes (fun _ => rfl) r.ordered (by simp [members])
  have h6 : (lookup (entriesIn r.members) 0x06).bind Cbor.bytes?
      = r.pinHashEnc :=
    read_member .bytes (fun _ => rfl) r.ordered (by simp [members])
  have h9 : (lookup (entriesIn r.members) 0x09).bind Cbor.octet?
      = r.permissions.map Permissions.bits :=
    read_member octetValue octet?_octetValue r.ordered
      (by simp [members, Function.comp_def])
  have h10 : (lookup (entriesIn r.members) 0x0A).bind Cbor.text? = r.rpId :=
    read_member .text (fun _ => rfl) r.ordered (by simp [members])
  have hpermissions : (r.permissions.map Permissions.bits).map Permissions.mk
      = r.permissions := by
    cases r.permissions <;> rfl
  rw [toCbor_eq]
  unfold ofCbor
  rw [entriesOf_map, ok_bind]
  simp only [h1, h2, h3, h4, h5, h6, h9, h10, hpermissions, ok_bind]
  rfl

end PinRequest

-- ============================================================== responses

namespace PinResponse

/-- The members of a response. -/
def members (r : PinResponse) : Members :=
  [(0x01, r.keyAgreement.map PublicKey.toCbor),
    (0x02, r.token.map .bytes),
    (0x03, r.pinRetries.map octetValue),
    (0x04, r.powerCycle.map .bool),
    (0x05, r.uvRetries.map octetValue)]

theorem toCbor_eq (r : PinResponse) :
    r.toCbor = .map (entriesIn r.members) := by
  simp [toCbor, entriesIn, members]

/-- The labels of responses ascend. -/
theorem ordered (r : PinResponse) : Ordered (r.members.map Prod.fst) := by
  show Ordered [1, 2, 3, 4, 5]
  decide

/-- A response is read from its row, with whatever is absent from it. -/
theorem ofCbor_toCbor (r : PinResponse) : ofCbor r.toCbor = .ok r := by
  have h1 : keyMember (lookup (entriesIn r.members) 0x01)
      = .ok r.keyAgreement :=
    read_keyMember r.ordered (by simp [members])
  have h2 : (lookup (entriesIn r.members) 0x02).bind Cbor.bytes? = r.token :=
    read_member .bytes (fun _ => rfl) r.ordered (by simp [members])
  have h3 : (lookup (entriesIn r.members) 0x03).bind Cbor.octet?
      = r.pinRetries :=
    read_member octetValue octet?_octetValue r.ordered (by simp [members])
  have h4 : (lookup (entriesIn r.members) 0x04).bind Cbor.bool?
      = r.powerCycle :=
    read_member .bool (fun _ => rfl) r.ordered (by simp [members])
  have h5 : (lookup (entriesIn r.members) 0x05).bind Cbor.octet?
      = r.uvRetries :=
    read_member octetValue octet?_octetValue r.ordered (by simp [members])
  rw [toCbor_eq]
  unfold ofCbor
  rw [entriesOf_map, ok_bind]
  simp only [h1, h2, h3, h4, h5, ok_bind]
  rfl

end PinResponse

-- ======================================================== kinds of messages

/-- A kind of message: its writer, its reader, the labels of its members
with whether they are present, and the strings in it. -/
structure MessageKind (α : Type) where
  write : α → Cbor
  read : Cbor → Except Error α
  labels : α → List (Int × Bool)
  strings : α → List Bytes

/-- A message that loses nothing and gains nothing on its way. It is read
again from its value; and from the octets of that, if its strings are such
as have a length of 64 bits. Its value is a map with one entry for each
member that is present, under different keys, and every map in it has its
keys in canonical order. -/
structure MessageKind.Carries {α : Type} (kind : MessageKind α) (v : α) :
    Prop where
  read_write : kind.read (kind.write v) = .ok v
  read_decode : (∀ s ∈ kind.strings v, s.length < Cbor.headLimit) →
    (valueOf (kind.write v).encode).bind kind.read = .ok v
  entries : ∃ entries, kind.write v = .map entries
    ∧ entries.map Prod.fst = ((kind.labels v).filter Prod.snd).map
        (fun label => .ofInt label.1)
    ∧ entries.Pairwise fun a b => a.1 ≠ b.1
  canonical : Canonical (kind.write v)

/-- Keys of key agreement. -/
def keyKind : MessageKind PublicKey where
  write := PublicKey.toCbor
  read := PublicKey.ofCbor
  labels _ := [(1, true), (3, true), (-1, true), (-2, true), (-3, true)]
  strings _ := []

/-- Requests of the client PIN command. -/
def requestKind : MessageKind PinRequest where
  write := PinRequest.toCbor
  read := PinRequest.ofCbor
  labels r := [(1, true), (2, true), (3, r.keyAgreement.isSome),
    (4, r.authParam.isSome), (5, r.newPinEnc.isSome),
    (6, r.pinHashEnc.isSome), (9, r.permissions.isSome), (10, r.rpId.isSome)]
  strings r := r.authParam.toList ++ r.newPinEnc.toList
    ++ r.pinHashEnc.toList ++ (r.rpId.map Utf8.encode).toList

/-- Responses of the client PIN command. -/
def responseKind : MessageKind PinResponse where
  write := PinResponse.toCbor
  read := PinResponse.ofCbor
  labels r := [(1, r.keyAgreement.isSome), (2, r.token.isSome),
    (3, r.pinRetries.isSome), (4, r.powerCycle.isSome),
    (5, r.uvRetries.isSome)]
  strings r := r.token.toList

/-- A kind whose writer makes the entries of a row in order carries every
message that its reader takes from there. -/
theorem carries_of_members {α : Type} {kind : MessageKind α} {v : α}
    {members : Members} (hread : kind.read (kind.write v) = .ok v)
    (hwrite : kind.write v = .map (entriesIn members))
    (hlabels : kind.labels v = members.map fun m => (m.1, m.2.isSome))
    (hordered : Ordered (members.map Prod.fst))
    (hfits : (∀ s ∈ kind.strings v, s.length < Cbor.headLimit) →
      Fits 256 (kind.write v))
    (hcanonical : ∀ m ∈ members, ∀ w ∈ m.2, Canonical w) :
    kind.Carries v where
  read_write := hread
  read_decode := by
    intro hstrings
    unfold valueOf
    rw [Cbor.decode_encode (hfits hstrings)]
    exact hread
  entries := by
    refine ⟨entriesIn members, hwrite, ?_, ?_⟩
    · rw [keys_entriesIn, hlabels, labelsIn, List.filter_map, List.map_map,
        List.map_map]
      rfl
    · exact (ascending_entriesIn hordered).imp Before.ne
  canonical := by
    rw [hwrite]
    exact canonical_entriesIn hordered hcanonical

theorem forall_mem_map {α : Type} {write : α → Cbor} {P : Cbor → Prop}
    {value : Option α} (h : ∀ a ∈ value, P (write a)) :
    ∀ v ∈ value.map write, P v := by
  intro v hv
  obtain ⟨a, ha, rfl⟩ := Option.map_eq_some_iff.mp hv
  exact h a ha

theorem forall_mem_some {P : Cbor → Prop} {value : Cbor} (h : P value) :
    ∀ v ∈ some value, P v := by
  intro v hv
  rw [← Option.some.inj hv]
  exact h

theorem length_coordinate (c : Octets 32) :
    c.toList.length < Cbor.headLimit := by
  rw [Vector.length_toList]
  decide

/-- A key can be read back anywhere in a message. -/
theorem PublicKey.fits (k : PublicKey) (depth : Nat) :
    Fits (depth + 1) k.toCbor := by
  rw [toCbor_eq]
  refine fits_entriesIn (by show 5 < _; decide) ?_
  simp only [members, List.forall_mem_cons]
  exact ⟨forall_mem_some (fits_ofInt _ _), forall_mem_some (fits_ofInt _ _),
    forall_mem_some (fits_ofInt _ _),
    forall_mem_some (.bytes (length_coordinate k.x)),
    forall_mem_some (.bytes (length_coordinate k.y)), List.forall_mem_nil _⟩

/-- All that a key contains is canonical by itself. -/
theorem PublicKey.canonical_members (k : PublicKey) :
    ∀ m ∈ k.members, ∀ v ∈ m.2, Canonical v := by
  simp only [members, List.forall_mem_cons]
  exact ⟨forall_mem_some (Cbor.canonical_ofInt _),
    forall_mem_some (Cbor.canonical_ofInt _),
    forall_mem_some (Cbor.canonical_ofInt _), forall_mem_some (.bytes _),
    forall_mem_some (.bytes _), List.forall_mem_nil _⟩

/-- So the map of a key is canonical. -/
theorem PublicKey.canonical (k : PublicKey) : Canonical k.toCbor := by
  rw [toCbor_eq]
  exact canonical_entriesIn k.ordered k.canonical_members

/-- Keys have nothing optional in them, so there is nothing to assume. -/
theorem keyKind_carries (k : PublicKey) : keyKind.Carries k :=
  carries_of_members k.ofCbor_toCbor k.toCbor_eq rfl k.ordered
    (fun _ => k.fits 255) k.canonical_members

/-- Requests can be read from their octets if their strings are short
enough. -/
theorem requestKind_carries (r : PinRequest) : requestKind.Carries r := by
  refine carries_of_members r.ofCbor_toCbor r.toCbor_eq ?_ r.ordered ?_ ?_
  · simp only [requestKind, PinRequest.members, List.map_cons, List.map_nil,
      Option.isSome_map, Option.isSome_some]
  · intro hstrings
    simp only [requestKind, List.forall_mem_append, Option.mem_toList] at hstrings
    obtain ⟨⟨⟨hauth, hnew⟩, hhash⟩, hrp⟩ := hstrings
    show Fits 256 r.toCbor
    rw [r.toCbor_eq]
    refine fits_entriesIn (by show 8 < _; decide) ?_
    simp only [PinRequest.members, List.forall_mem_cons]
    refine ⟨forall_mem_some (fits_ofInt _ _), forall_mem_some (fits_ofInt _ _),
      forall_mem_map fun k _ => k.fits 254,
      forall_mem_map fun s hs => .bytes (hauth s hs),
      forall_mem_map fun s hs => .bytes (hnew s hs),
      forall_mem_map fun s hs => .bytes (hhash s hs),
      forall_mem_map fun p _ => fits_ofInt _ _,
      forall_mem_map fun t ht => .text (hrp _ ?_), List.forall_mem_nil _⟩
    exact Option.mem_map_of_mem _ ht
  · simp only [PinRequest.members, List.forall_mem_cons]
    exact ⟨forall_mem_some (Cbor.canonical_ofInt _),
      forall_mem_some (Cbor.canonical_ofInt _),
      forall_mem_map fun k _ => k.canonical, forall_mem_map fun s _ => .bytes s,
      forall_mem_map fun s _ => .bytes s, forall_mem_map fun s _ => .bytes s,
      forall_mem_map fun _ _ => Cbor.canonical_ofInt _,
      forall_mem_map fun t _ => .text t, List.forall_mem_nil _⟩

theorem responseKind_carries (r : PinResponse) : responseKind.Carries r := by
  refine carries_of_members r.ofCbor_toCbor r.toCbor_eq ?_ r.ordered ?_ ?_
  · simp only [responseKind, PinResponse.members, List.map_cons, List.map_nil,
      Option.isSome_map]
  · intro hstrings
    simp only [responseKind, Option.mem_toList] at hstrings
    show Fits 256 r.toCbor
    rw [r.toCbor_eq]
    refine fits_entriesIn (by show 5 < _; decide) ?_
    simp only [PinResponse.members, List.forall_mem_cons]
    exact ⟨forall_mem_map fun k _ => k.fits 254,
      forall_mem_map fun s hs => .bytes (hstrings s hs),
      forall_mem_map fun _ _ => fits_ofInt _ _,
      forall_mem_map fun b _ => .bool b,
      forall_mem_map fun _ _ => fits_ofInt _ _, List.forall_mem_nil _⟩
  · simp only [PinResponse.members, List.forall_mem_cons]
    exact ⟨forall_mem_map fun k _ => k.canonical,
      forall_mem_map fun s _ => .bytes s,
      forall_mem_map fun _ _ => Cbor.canonical_ofInt _,
      forall_mem_map fun b _ => .bool b,
      forall_mem_map fun _ _ => Cbor.canonical_ofInt _, List.forall_mem_nil _⟩

/-- Requests, responses and keys come back from their maps as they were,
directly and through the octets; their maps are canonical, with one entry
for each member that is present and none for the others. -/
theorem messages_carried :
    (∀ r, requestKind.Carries r) ∧ (∀ r, responseKind.Carries r)
      ∧ ∀ k, keyKind.Carries k :=
  ⟨requestKind_carries, responseKind_carries, keyKind_carries⟩

/-- A request for a token, with a key in it and a party's name of more than
one octet a letter, is read again from its octets. -/
theorem tokenRequest_carried :
    let r : PinRequest :=
      { protocol := 2, subCommand := 9, keyAgreement := some ⟨default, default⟩,
        pinHashEnc := some [1, 2, 3], permissions := some ⟨0x05⟩,
        rpId := some "é.example" }
    (∀ s ∈ requestKind.strings r, s.length < Cbor.headLimit)
      ∧ (valueOf r.toCbor.encode).bind PinRequest.ofCbor = .ok r := by
  intro r
  have hstrings : ∀ s ∈ requestKind.strings r, s.length < Cbor.headLimit := by
    decide +kernel
  exact ⟨hstrings, (messages_carried.1 r).read_decode hstrings⟩

end SmartCard.Fido
