import SchemaLoom.Proofs.Conformance
import SchemaLoom.Proofs.Resolution

/-!
# The round trips of records and objects

For every schema that can be resolved, decoding what encoding wrote gives back the record in normal
form, and a record in normal form itself.  In the other direction, any object that can be decoded is
brought into a form that further rounds of decoding and encoding leave as it is.
-/

namespace SchemaLoom.Resolution

open Wire

/-- Decoding inverts encoding up to normal form, for every record that can be encoded and whose
enumeration values are declared and collections countable.  Records in normal form come back
unchanged, to the last bit. -/
theorem decode_encode (resolution : Resolution) {typeName : String} {record : Record}
    {object : Object}
    (hencode : resolution.codec.encode typeName record .empty = (object, .ok ()))
    (hreadable : record.obeys resolution.codec (.readable resolution.codec) typeName) :
    resolution.codec.decode typeName object =
        .ok (Record.normalize resolution.codec typeName record) ∧
      (record.obeys resolution.codec (.normal resolution.codec) typeName →
        resolution.codec.decode typeName object = .ok record) := by
  have hdecode := Codec.decode_of_encode resolution.nodup_ids hencode hreadable
  refine ⟨hdecode, fun hnormal => ?_⟩
  rw [hdecode, Record.normalize_eq_self hnormal]

/-- A node with a repeated key, and with numbers no node has at two depths. -/
def crowdedNode : Record :=
  [(1, .singular (label "root")),
    (2, .list [.record (leaf "first" ⟨0x8000000000000000⟩)]),
    (3, .map [(label "x", .record (leaf "old" ⟨0⟩)), (label "y", .record (leaf "other" ⟨0⟩)),
      (label "x", .record ((7, .list []) :: leaf "new" ⟨0⟩))]),
    (5, .singular (.atom (.scalar (.double ⟨0x7FF8000000000001⟩)))), (6, .map []),
    (9, .option none)]

/-- The same node in normal form, with its negative zero and the payload of its NaN. -/
def tidyNode : Record :=
  [(1, .singular (label "root")),
    (2, .list [.record (leaf "first" ⟨0x8000000000000000⟩)]),
    (3, .map [(label "x", .record (leaf "new" ⟨0⟩)), (label "y", .record (leaf "other" ⟨0⟩))]),
    (5, .singular (.atom (.scalar (.double ⟨0x7FF8000000000001⟩)))), (6, .map [])]

theorem decode_encode_nodes :
    (ofNodes.codec.encode "shapes.Node" crowdedNode .empty).2 = .ok () ∧
      crowdedNode.obeys ofNodes.codec (.readable ofNodes.codec) "shapes.Node" ∧
      ofNodes.codec.decode "shapes.Node" (ofNodes.codec.encode "shapes.Node" crowdedNode .empty).1 =
        .ok tidyNode ∧
      ofNodes.codec.decode "shapes.Node" (ofNodes.codec.encode "shapes.Node" tidyNode .empty).1 =
        .ok tidyNode := by
  have hreadable : crowdedNode.obeys ofNodes.codec (.readable ofNodes.codec) "shapes.Node" := by
    decide +kernel
  have hnormalize : Record.normalize ofNodes.codec "shapes.Node" crowdedNode = tidyNode := by
    with_unfolding_all rfl
  refine ⟨rfl, hreadable, ?_, ?_⟩
  · rw [← hnormalize]
    exact (ofNodes.decode_encode rfl hreadable).1
  · exact (ofNodes.decode_encode rfl (by decide +kernel)).2 (by decide +kernel)

/-- Whatever an object holds, the record decoded from it conforms to its type.  It can be encoded
again, and from then on decoding and encoding lead back and forth between the same record and the
same object. -/
theorem encode_decode (resolution : Resolution) {typeName : String} {object : Object}
    {record : Record} (hdecode : resolution.codec.decode typeName object = .ok record) :
    record.obeys resolution.codec (.conforming resolution.codec) typeName ∧
      ∃ written, resolution.codec.encode typeName record .empty = (written, .ok ()) ∧
        resolution.codec.decode typeName written = .ok record ∧
        (resolution.codec.decode typeName written).map
            (fun again => resolution.codec.encode typeName again .empty) =
          .ok (written, .ok ()) := by
  have hunique : resolution.codec.UniqueIds := resolution.nodup_ids
  have hconforming : record.obeys resolution.codec (.conforming resolution.codec) typeName :=
    Codec.readsConforming_decodeTo hunique _ typeName object record hdecode
  have hwritable := Record.obeys_of_implies (Rules.conforming_implies_writable _) hconforming
  have hstable := Record.obeys_of_implies (Rules.conforming_implies_stable _) hconforming
  have hreadable := Record.obeys_of_implies (Rules.stable_implies_readable _) hstable
  have hnormal := Record.obeys_of_implies (Rules.stable_implies_normal _) hstable
  obtain ⟨written, hencode⟩ := Codec.exists_encodeTo hunique (Nat.lt_succ_self _) hwritable
  have hagain : resolution.codec.decode typeName written = .ok record := by
    rw [Codec.decode_of_encode hunique hencode hreadable, Record.normalize_eq_self hnormal]
  refine ⟨hconforming, written, hencode, hagain, ?_⟩
  rw [hagain]
  exact congrArg Except.ok hencode

/-- The log of a node without children, its values in no particular order. -/
def leafObject (text : String) : Object :=
  .mk [(5, .scalar (.double ⟨0⟩)), (1, .scalar (.string text))] []

/-- The log of an entry of a map from texts, with any number of keys. -/
def entryObject (keys : List String) (text : String) : Object :=
  .mk (keys.map fun key => (1, .scalar (.string key))) [(2, leafObject text)]

/-- The log of a node: values written twice, of other kinds and under other numbers, a key that
occurs twice and a key that was not written. -/
def scatteredObject : Object :=
  .mk [(1, .scalar (.string "early")), (9, .scalar (.bool true)), (1, .enumeration 7),
      (5, .scalar (.double ⟨0x8000000000000000⟩)), (1, .scalar (.string "root"))]
    [(3, entryObject ["x"] "old"), (8, .empty), (3, entryObject [] "keyless"),
      (3, entryObject ["y", "x"] "new")]

/-- The node in the scattered log. -/
def gatheredNode : Record :=
  [(1, .singular (label "root")), (2, .list []),
    (3, .map [(label "x", .record (leaf "new" ⟨0⟩)), (label "", .record (leaf "keyless" ⟨0⟩))]),
    (5, .singular (.atom (.scalar (.double ⟨0x8000000000000000⟩)))), (6, .map [])]

theorem encode_decode_scattered :
    ofNodes.codec.decode "shapes.Node" scatteredObject = .ok gatheredNode ∧
      ofNodes.codec.decode "shapes.Node"
          (ofNodes.codec.encode "shapes.Node" gatheredNode .empty).1 = .ok gatheredNode := by
  have hdecode : ofNodes.codec.decode "shapes.Node" scatteredObject = .ok gatheredNode := by
    with_unfolding_all rfl
  obtain ⟨-, written, hencode, hagain, -⟩ := ofNodes.encode_decode hdecode
  exact ⟨hdecode, by rw [hencode]; exact hagain⟩

end SchemaLoom.Resolution
