import OpenvasSmb.Asn1.Codec

/-!
# Trees of elements

Callers of the ASN.1 coder write nested elements by `asn1_push_tag` and
`asn1_pop_tag` around what is inside, and read them back with `asn1_start_tag` and
`asn1_end_tag` in the same places. `writeTree` and `readTree` are these callers for every
tree of tags with octet strings as its leaves.
-/

namespace OpenvasSmb.Asn1

/-- Tagged elements around octet strings. -/
inductive Tree where
  | leaf (octets : Bytes)
  | node (tag : UInt8) (children : List Tree)

mutual

def writeTree (d : Asn1Data) : Tree → Asn1Data
  | .leaf octets => asn1WriteOctetString d octets
  | .node tag children => asn1PopTag (writeForest (asn1PushTag d tag) children)

def writeForest (d : Asn1Data) : List Tree → Asn1Data
  | [] => d
  | t :: ts => writeForest (writeTree d t) ts

end

mutual

/-- The matching calls that read a tree of the given shape; `none` when a call fails. -/
def readTree (d : Asn1Data) : Tree → Option Tree × Asn1Data
  | .leaf _ =>
    match asn1ReadOctetString d with
    | (some octets, d) => (some (.leaf octets), d)
    | (none, d) => (none, d)
  | .node tag children =>
    match asn1StartTag d tag with
    | (false, d) => (none, d)
    | (true, d) =>
      match readForest d children with
      | (none, d) => (none, d)
      | (some children, d) =>
        match asn1EndTag d with
        | (false, d) => (none, d)
        | (true, d) => (some (.node tag children), d)

def readForest (d : Asn1Data) : List Tree → Option (List Tree) × Asn1Data
  | [] => (some [], d)
  | t :: ts =>
    match readTree d t with
    | (none, d) => (none, d)
    | (some t, d) =>
      match readForest d ts with
      | (none, d) => (none, d)
      | (some ts, d) => (some (t :: ts), d)

end

/-! ## The encoding -/

mutual

def Tree.encode : Tree → Bytes
  | .leaf octets => tlv asn1OctetString octets
  | .node tag children => tlv tag (encodeForest children)

def encodeForest : List Tree → Bytes
  | [] => []
  | t :: ts => t.encode ++ encodeForest ts

end

mutual

theorem writeTree_atEnd {d : Asn1Data} (hd : d.AtEnd) : ∀ t : Tree,
    writeTree d t = d.append t.encode
  | .leaf octets => by
    rw [writeTree, asn1WriteOctetString_atEnd hd, Tree.encode]
  | .node tag children => by
    rw [writeTree, asn1PushTag_atEnd hd, writeForest_atEnd (hd.pushed tag) children,
      asn1PopTag_append hd, Tree.encode]

theorem writeForest_atEnd {d : Asn1Data} (hd : d.AtEnd) : ∀ ts : List Tree,
    writeForest d ts = d.append (encodeForest ts)
  | [] => by rw [writeForest, encodeForest, append_nil]
  | t :: ts => by
    rw [writeForest, writeTree_atEnd hd t, writeForest_atEnd (hd.append _) ts, append_append,
      encodeForest]

end

mutual

theorem readTree_ahead {d : Asn1Data} : ∀ (t : Tree) {p : Bytes}, d.Ahead (t.encode ++ p) →
    t.encode.length < 2 ^ 24 → readTree d t = (some t, d.skip t.encode.length)
  | .leaf octets, p, h, hlen => by
    rw [Tree.encode] at h hlen ⊢
    rw [length_tlv] at hlen
    rw [readTree, asn1ReadOctetString_ahead h (by omega)]
  | .node tag children, p, h, hlen => by
    rw [Tree.encode] at h hlen ⊢
    rw [length_tlv] at hlen
    obtain ⟨hstart, hopened⟩ := asn1StartTag_ahead h
    have hread := readForest_ahead children hopened (by omega)
    rw [readTree, hstart]
    simp only [hread, asn1EndTag_opened h (by omega)]

theorem readForest_ahead {d : Asn1Data} : ∀ (ts : List Tree) {p : Bytes},
    d.Ahead (encodeForest ts ++ p) → (encodeForest ts).length < 2 ^ 24 →
    readForest d ts = (some ts, d.skip (encodeForest ts).length)
  | [], p, h, hlen => by
    rfl
  | t :: ts, p, h, hlen => by
    rw [encodeForest, List.append_assoc] at h
    rw [encodeForest, List.length_append] at hlen
    rw [readForest, readTree_ahead t h (by omega)]
    simp only [readForest_ahead ts h.skip (by omega), skip_skip, encodeForest, List.length_append]

end

/-! ## The round trip -/

/-- **Trees round trip**, whatever the tree, as long as its encoding has less than `2 ^ 24` bytes.
-/
theorem asn1_tree_round_trip (t : Tree) (hlen : (writeTree (asn1Load []) t).data.length < 2 ^ 24) :
    (writeTree (asn1Load []) t).hasError = false ∧
      ∃ d, readTree (asn1Load (writeTree (asn1Load []) t).data) t = (some t, d) ∧
        d.hasError = false ∧ d.ofs = d.data.length ∧ d.nesting = [] := by
  have hwrite := writeTree_atEnd Asn1Data.AtEnd.load t
  have hdata : (writeTree (asn1Load []) t).data = t.encode := by
    rw [hwrite]
    rfl
  rw [hdata] at hlen ⊢
  have hahead : (asn1Load t.encode).Ahead (t.encode ++ []) := .whole (by unfold intMax; omega)
  refine ⟨by rw [hwrite]; rfl, _, readTree_ahead t hahead hlen, rfl, ?_, rfl⟩
  simp [asn1Load, Asn1Data.skip]

/-- Two tags, three leaves, one of them empty. -/
theorem asn1_tree_round_trip_nested :
    (writeTree (asn1Load []) (.node 0x60 [.leaf [1, 2], .node 0xa0 [.leaf []], .leaf [3]])).hasError
      = false :=
  (asn1_tree_round_trip (.node 0x60 [.leaf [1, 2], .node 0xa0 [.leaf []], .leaf [3]])
    (by decide)).1

end OpenvasSmb.Asn1
