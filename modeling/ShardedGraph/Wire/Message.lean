import ShardedGraph.Wire.Codec

/-!
# Messages as octets

A message is the number of its form in four octets, followed by its content. The forms of
requests and of replies are numbered in the order of their definition. Octets after a
message are ignored.
-/

set_option autoImplicit false

namespace ShardedGraph.Wire

open Codec

/-! ## Contents -/

/-- Lists of nodes. -/
def nodes : Codec (List NodeId) := list word

/-- Lists of lists of nodes. -/
def nodeLists : Codec (List (List NodeId)) := list nodes

/-- Contexts and features. -/
def weighted : Codec (List (UInt64 × Number.Single)) := list (pair word single)

/-- Requests for negative nodes. -/
def negativeQuery : Codec NegativeQuery :=
  (pair word (pair nodes nodes)).imap (fun (count, nodes, excluded) => ⟨count, nodes, excluded⟩)
    fun query => (query.count, query.nodes, query.excluded)

/-- Requests for neighbors. -/
def neighborQuery : Codec NeighborQuery :=
  (pair signed nodes).imap (fun (count, nodes) => ⟨count, nodes⟩)
    fun query => (query.count, query.nodes)

/-- Requests for walks. -/
def walkQuery : Codec WalkQuery :=
  (pair nodes (pair (list word) (pair (list word) (list shortWord)))).imap
    (fun (starts, lengths, offsets, path) => ⟨starts, lengths, offsets, path⟩)
    fun query => (query.starts, query.lengths, query.offsets, query.path)

/-- Requests for pages. -/
def pageQuery : Codec PageQuery :=
  (pair word word).imap (fun (cursor, count) => ⟨cursor, count⟩)
    fun query => (query.cursor, query.count)

/-! ## Forms -/

/-- Writes a content after the number of its form. -/
def encodeForm {α : Type} (form : Nat) (content : Codec α) (value : α) : List UInt8 :=
  (nat 4).encode form ++ content.encode value

/-- Reads a content and makes a message of it. -/
def decodeForm {α β : Type} (content : Codec α) (make : α → β) (octets : List UInt8) :
    Except CodecFault (β × List UInt8) :=
  (content.decode octets).map fun (value, rest) => (make value, rest)

/-! ## Requests -/

/-- Writes a request. -/
def encodeRequest : Request → List UInt8
  | .metaValue key => encodeForm 0 text key
  | .sharedNegatives query => encodeForm 1 negativeQuery query
  | .independentNegatives query => encodeForm 2 negativeQuery query
  | .neighbors query => encodeForm 3 neighborQuery query
  | .walks query => encodeForm 4 walkQuery query
  | .features found => encodeForm 5 nodes found
  | .nodeFeatures found => encodeForm 6 nodes found
  | .neighborFeatures found => encodeForm 7 nodes found
  | .contexts found => encodeForm 8 nodes found
  | .hotNodes query => encodeForm 9 pageQuery query

/-- The number of forms of requests. -/
def requestForms : Nat := 10

/-- Reads a request of the form with the given number. -/
def decodeRequestForm (octets : List UInt8) : Nat → Except CodecFault (Request × List UInt8)
  | 0 => decodeForm text .metaValue octets
  | 1 => decodeForm negativeQuery .sharedNegatives octets
  | 2 => decodeForm negativeQuery .independentNegatives octets
  | 3 => decodeForm neighborQuery .neighbors octets
  | 4 => decodeForm walkQuery .walks octets
  | 5 => decodeForm nodes .features octets
  | 6 => decodeForm nodes .nodeFeatures octets
  | 7 => decodeForm nodes .neighborFeatures octets
  | 8 => decodeForm nodes .contexts octets
  | 9 => decodeForm pageQuery .hotNodes octets
  | form => .error (.unknownForm form requestForms)

/-- Requests. -/
def request : Codec Request where
  encode := encodeRequest
  decode octets := do
    let (form, rest) ← (nat 4).decode octets
    decodeRequestForm rest form

/-! ## Replies -/

/-- Writes a reply. -/
def encodeReply : Reply → List UInt8
  | .metaValue value => encodeForm 0 text value
  | .negatives pools => encodeForm 1 nodeLists pools
  | .neighbors lists => encodeForm 2 nodeLists lists
  | .walks hops => encodeForm 3 nodeLists hops
  | .features ofNodes ofNeighbors =>
      encodeForm 4 (pair (list weighted) (list weighted)) (ofNodes, ofNeighbors)
  | .nodeFeatures found => encodeForm 5 (list weighted) found
  | .neighborFeatures found => encodeForm 6 (list weighted) found
  | .contexts found => encodeForm 7 (list weighted) found
  | .hotNodes found => encodeForm 8 nodes found

/-- The number of forms of replies. -/
def replyForms : Nat := 9

/-- Reads a reply of the form with the given number. -/
def decodeReplyForm (octets : List UInt8) : Nat → Except CodecFault (Reply × List UInt8)
  | 0 => decodeForm text .metaValue octets
  | 1 => decodeForm nodeLists .negatives octets
  | 2 => decodeForm nodeLists .neighbors octets
  | 3 => decodeForm nodeLists .walks octets
  | 4 =>
      decodeForm (pair (list weighted) (list weighted))
        (fun (ofNodes, ofNeighbors) => .features ofNodes ofNeighbors) octets
  | 5 => decodeForm (list weighted) .nodeFeatures octets
  | 6 => decodeForm (list weighted) .neighborFeatures octets
  | 7 => decodeForm (list weighted) .contexts octets
  | 8 => decodeForm nodes .hotNodes octets
  | form => .error (.unknownForm form replyForms)

/-- Replies. -/
def reply : Codec Reply where
  encode := encodeReply
  decode octets := do
    let (form, rest) ← (nat 4).decode octets
    decodeReplyForm rest form

/-! ## Whole messages -/

/-- Reads a message at the beginning of octets. -/
def read {α : Type} (codec : Codec α) (octets : List UInt8) : Except Error α :=
  match codec.decode octets with
  | .ok (value, _) => .ok value
  | .error fault => .error (.codec fault)

end ShardedGraph.Wire
