import ShardedGraph.Proofs.Codecs

/-!
# Messages and their octets

The codecs of requests and of replies are exact about the messages whose lengths fit in eight
octets (`isExact_request`, `isExact_reply`). The lengths of a message are those of its lists and
of its texts, the latter in octets; no list or text that a machine of 64 bits holds is longer.

**Nothing is lost.** A message comes back as it was sent, whatever octets follow it
(`requests_and_replies_roundTrip`). Numbers with a point come back with all their bits, because
these are what such a number is.

**Nothing else is read.** Octets are read as a message exactly when they begin with its octets
(`requests_and_replies_canonical`). So no beginning of a message is one, and nothing is read that
has an unknown form, a text that is not UTF-8, or a list or text that is longer than the octets
after its length.
-/

set_option autoImplicit false

namespace ShardedGraph

/-! ## Lengths of messages -/

/-- The lengths of the lists and texts of a request. -/
def Request.lengths : Request → List Nat
  | .metaValue key => [(Text.writeUtf8 key).length]
  | .sharedNegatives query | .independentNegatives query =>
      [query.nodes.length, query.excluded.length]
  | .neighbors query => [query.nodes.length]
  | .walks query =>
      [query.starts.length, query.lengths.length, query.offsets.length, query.path.length]
  | .features nodes | .nodeFeatures nodes | .neighborFeatures nodes | .contexts nodes =>
      [nodes.length]
  | .hotNodes _ => []

/-- The length of a list of lists, and the lengths of its lists. -/
def lengthsOf {α : Type} (lists : List (List α)) : List Nat :=
  lists.length :: lists.map List.length

/-- The lengths of the lists and texts of a reply. -/
def Reply.lengths : Reply → List Nat
  | .metaValue value => [(Text.writeUtf8 value).length]
  | .negatives lists | .neighbors lists | .walks lists => lengthsOf lists
  | .features ofNodes ofNeighbors => lengthsOf ofNodes ++ lengthsOf ofNeighbors
  | .nodeFeatures found | .neighborFeatures found | .contexts found => lengthsOf found
  | .hotNodes nodes => [nodes.length]

/-- Lengths that eight octets can stand for. -/
def LengthsFit (lengths : List Nat) : Prop := ∀ length ∈ lengths, length < UInt64.size

instance (lengths : List Nat) : Decidable (LengthsFit lengths) :=
  inferInstanceAs (Decidable (∀ length ∈ lengths, length < UInt64.size))

@[simp] theorem lengthsFit_nil : LengthsFit [] := by
  intro length member
  exact absurd member (List.not_mem_nil)

@[simp] theorem lengthsFit_cons {length : Nat} {lengths : List Nat} :
    LengthsFit (length :: lengths) ↔ length < UInt64.size ∧ LengthsFit lengths :=
  List.forall_mem_cons

@[simp] theorem lengthsFit_append {lengths lengths' : List Nat} :
    LengthsFit (lengths ++ lengths') ↔ LengthsFit lengths ∧ LengthsFit lengths' :=
  List.forall_mem_append

@[simp] theorem lengthsFit_lengthsOf {α : Type} {lists : List (List α)} :
    LengthsFit (lengthsOf lists) ↔
      lists.length < UInt64.size ∧ ∀ values ∈ lists, values.length < UInt64.size := by
  simp [lengthsOf, LengthsFit]

namespace Wire

open Codec

variable {μ α β : Type}

/-! ## Contents -/

/-- A codec is exact about the values whose lengths fit, and what it writes takes, for every
length, eight octets and at least as many as this length. -/
structure Measures (content : Codec α) (lengths : α → List Nat) : Prop where
  exact : content.IsExact fun value => LengthsFit (lengths value)
  spans : ∀ value, ∀ length ∈ lengths value, length + 8 ≤ (content.encode value).length

theorem Measures.pair {first : Codec α} {second : Codec β} {lengths : α → List Nat}
    {lengths' : β → List Nat} (measures : Measures first lengths)
    (measures' : Measures second lengths') :
    Measures (first.pair second) fun value => lengths value.1 ++ lengths' value.2 where
  exact := (measures.exact.pair measures'.exact).congr fun _ => lengthsFit_append.symm
  spans := by
    intro value length member
    change _ ≤ (first.encode value.1 ++ second.encode value.2).length
    rw [List.length_append]
    rcases List.mem_append.mp member with left | right
    · exact Nat.le_add_right_of_le (measures.spans value.1 length left)
    · exact Nat.le_add_left_of_le (measures'.spans value.2 length right)

/-- Values that stand for others one to one have the lengths of these. -/
theorem Measures.imap {codec : Codec α} {lengths : α → List Nat} (measures : Measures codec lengths)
    {forth : α → β} {back : β → α} (left : ∀ value, forth (back value) = value)
    (right : ∀ value, back (forth value) = value) :
    Measures (codec.imap forth back) fun value => lengths (back value) where
  exact := measures.exact.imap left fun value _ => right value
  spans value := measures.spans (back value)

/-- Numbers have no lengths. -/
theorem measures_of_true {codec : Codec α} (exact : codec.IsExact fun _ => True) :
    Measures codec fun _ => [] where
  exact := exact.congr fun _ => (iff_true_intro lengthsFit_nil).symm
  spans := by simp

theorem measures_text : Measures text fun value => [(Text.writeUtf8 value).length] where
  exact := isExact_text.congr fun _ => by simp
  spans value := by
    have whole : (text.encode value).length = 8 + (Text.writeUtf8 value).length := by
      simp [text]
    simp [whole, Nat.add_comm]

/-- Lists of items that each take an octet. -/
theorem measures_list {item : Codec α} (exact : item.IsExact fun _ => True)
    (filled : ∀ value, item.encode value ≠ []) :
    Measures (list item) fun values => [values.length] where
  exact := exact.list_of_true.congr fun _ => by simp
  spans values := by simpa using length_add_le_encode_list filled values

section Lists

variable {item : Codec (List α)} (measures : Measures item fun values => [values.length])
include measures

theorem Measures.encode_ne_nil (values : List α) : item.encode values ≠ [] := by
  intro empty
  have long := measures.spans values _ List.mem_cons_self
  rw [empty] at long
  exact absurd long (by simp)

/-- Lists of lists. -/
theorem Measures.list : Measures (Codec.list item) lengthsOf where
  exact := measures.exact.list.congr fun _ => by simp
  spans := by
    intro lists length member
    rcases List.mem_cons.mp member with rfl | further
    · exact length_add_le_encode_list measures.encode_ne_nil lists
    · obtain ⟨values, here, rfl⟩ := List.mem_map.mp further
      exact Nat.le_trans (measures.spans values _ List.mem_cons_self)
        (length_encode_le_of_mem here)

theorem Measures.refusesShort_list : (Codec.list item).RefusesShort :=
  measures.exact.refusesShort_list measures.encode_ne_nil

end Lists

theorem encode_word_ne_nil (value : UInt64) : word.encode value ≠ [] := by
  apply List.ne_nil_of_length_pos
  exact Nat.lt_of_lt_of_eq (by decide) (length_encode_nat 8 value.toNat).symm

theorem encode_shortWord_ne_nil (value : UInt16) : shortWord.encode value ≠ [] := by
  apply List.ne_nil_of_length_pos
  exact Nat.lt_of_lt_of_eq (by decide) (length_encode_nat 2 value.toNat).symm

theorem measures_nodes : Measures nodes fun found => [found.length] :=
  measures_list isExact_word encode_word_ne_nil

theorem measures_nodeLists : Measures nodeLists lengthsOf := measures_nodes.list

theorem measures_weighted : Measures weighted fun entries => [entries.length] := by
  refine measures_list ((isExact_word.pair isExact_single).congr fun _ => and_self_iff) ?_
  intro entry empty
  exact encode_word_ne_nil entry.1 (List.append_eq_nil_iff.mp empty).1

theorem measures_weightedLists : Measures (list weighted) lengthsOf := measures_weighted.list

theorem measures_negativeQuery :
    Measures negativeQuery fun query => [query.nodes.length, query.excluded.length] :=
  Measures.imap ((measures_of_true isExact_word).pair (measures_nodes.pair measures_nodes))
    (fun _ => rfl) fun _ => rfl

theorem measures_neighborQuery : Measures neighborQuery fun query => [query.nodes.length] :=
  Measures.imap ((measures_of_true isExact_signed).pair measures_nodes)
    (fun _ => rfl) fun _ => rfl

theorem measures_walkQuery : Measures walkQuery fun query =>
    [query.starts.length, query.lengths.length, query.offsets.length, query.path.length] :=
  have words : Measures (list word) fun values => [values.length] :=
    measures_list isExact_word encode_word_ne_nil
  have path : Measures (list shortWord) fun values => [values.length] :=
    measures_list isExact_shortWord encode_shortWord_ne_nil
  Measures.imap (measures_nodes.pair (words.pair (words.pair path)))
    (fun _ => rfl) fun _ => rfl

theorem measures_pageQuery : Measures pageQuery fun _ => [] :=
  Measures.imap ((measures_of_true isExact_word).pair (measures_of_true isExact_word))
    (fun _ => rfl) fun _ => rfl

theorem refusesShort_nodes : nodes.RefusesShort :=
  isExact_word.refusesShort_list encode_word_ne_nil

theorem refusesShort_walkQuery : walkQuery.RefusesShort := (refusesShort_nodes.pair _).imap _ _

/-! ## Forms -/

/-- The codec of messages that begin with the number of their form. -/
def formed (encode : μ → List UInt8)
    (decode : List UInt8 → Nat → Except CodecFault (μ × List UInt8)) : Codec μ where
  encode := encode
  decode octets := do
    let (form, rest) ← (nat 4).decode octets
    decode rest form

/-- A form of messages: its number, the codec of its contents and the messages that they make. -/
structure IsForm (encode : μ → List UInt8)
    (decode : List UInt8 → Nat → Except CodecFault (μ × List UInt8)) (lengths : μ → List Nat)
    (form : Nat) (content : Codec α) (make : α → μ) : Prop where
  small : form < capacity 4 := by decide
  written : ∀ value, encode (make value) = encodeForm form content value := by exact fun _ => rfl
  read : ∀ octets, decode octets form = decodeForm content make octets := by exact fun _ => rfl
  measures : Measures content fun value => lengths (make value)

section Forms

variable {encode : μ → List UInt8}
  {decode : List UInt8 → Nat → Except CodecFault (μ × List UInt8)} {lengths : μ → List Nat}

/-- Messages of a form are read back when their lengths fit. -/
theorem IsForm.reads {form : Nat} {content : Codec α} {make : α → μ}
    (isForm : IsForm encode decode lengths form content make) {value : α}
    (fits : LengthsFit (lengths (make value))) : (formed encode decode).Reads (make value) := by
  intro rest
  change ((nat 4).decode (encode (make value) ++ rest) >>= _) = _
  rw [isForm.written, encodeForm, List.append_assoc]
  refine ((reads_nat isForm.small).bind _ _).trans ?_
  change decode (content.encode value ++ rest) form = _
  rw [isForm.read, decodeForm, isForm.measures.exact.reads value fits]
  rfl

/-- A message that is read in a form fits, and what it was read from are the number of the form
and the octets of its content. -/
theorem IsForm.eq_of_read {form : Nat} {content : Codec α} {make : α → μ}
    (isForm : IsForm encode decode lengths form content make)
    {octets rest : List UInt8} {message : μ} (run : decode octets form = .ok (message, rest)) :
    LengthsFit (lengths message) ∧ (nat 4).encode form ++ octets = encode message ++ rest := by
  rw [isForm.read] at run
  obtain ⟨⟨value, left⟩, read, same⟩ := except_map_eq_ok.mp run
  cases same
  obtain ⟨fits, rfl⟩ := isForm.measures.exact.written octets value rest read
  refine ⟨fits, ?_⟩
  rw [isForm.written, encodeForm, List.append_assoc]

/-- The forms of messages: every message has one of them, and no form beyond their number is
read. The contents of the leading ones begin with a length. -/
structure AreForms (encode : μ → List UInt8)
    (decode : List UInt8 → Nat → Except CodecFault (μ × List UInt8)) (lengths : μ → List Nat)
    (forms : Nat) (leading : List Nat) : Prop where
  made : ∀ message, ∃ (α : Type) (form : Nat) (content : Codec α) (make : α → μ) (value : α),
    IsForm encode decode lengths form content make ∧ make value = message
  known : ∀ form < forms, ∃ (α : Type) (content : Codec α) (make : α → μ),
    IsForm encode decode lengths form content make ∧ (form ∈ leading → content.RefusesShort)
  unknown : ∀ form, forms ≤ form → ∀ octets, decode octets form = .error (.unknownForm form forms)

variable {forms : Nat} {leading : List Nat}
  (areForms : AreForms encode decode lengths forms leading)
include areForms

/-- The codec of messages of all forms is exact about those whose lengths fit. -/
theorem AreForms.isExact :
    (formed encode decode).IsExact fun message => LengthsFit (lengths message) where
  reads := by
    intro message fits
    obtain ⟨α, form, content, make, value, isForm, rfl⟩ := areForms.made message
    exact isForm.reads fits
  written := by
    intro octets message rest run
    obtain ⟨⟨form, between⟩, read, taken⟩ := except_bind_eq_ok.mp run
    obtain ⟨-, rfl⟩ := (isExact_nat 4).written octets form between read
    rcases Nat.lt_or_ge form forms with below | beyond
    · obtain ⟨α, content, make, isForm, -⟩ := areForms.known form below
      exact isForm.eq_of_read taken
    · cases taken.symm.trans (areForms.unknown form beyond between)

/-- A message takes four octets for its form and then those of its content. -/
theorem AreForms.length_add_le (message : μ) {length : Nat} (member : length ∈ lengths message) :
    length + 12 ≤ (encode message).length := by
  obtain ⟨α, form, content, make, value, isForm, rfl⟩ := areForms.made message
  have spans := isForm.measures.spans value length member
  rw [isForm.written, encodeForm, List.length_append, length_encode_nat]
  omega

end Forms

theorem areForms_request :
    AreForms encodeRequest decodeRequestForm Request.lengths requestForms [0, 4, 5, 6, 7, 8] where
  made
    | .metaValue key => ⟨_, 0, _, .metaValue, key, { measures := measures_text }, rfl⟩
    | .sharedNegatives query =>
        ⟨_, 1, _, .sharedNegatives, query, { measures := measures_negativeQuery }, rfl⟩
    | .independentNegatives query =>
        ⟨_, 2, _, .independentNegatives, query, { measures := measures_negativeQuery }, rfl⟩
    | .neighbors query =>
        ⟨_, 3, _, .neighbors, query, { measures := measures_neighborQuery }, rfl⟩
    | .walks query => ⟨_, 4, _, .walks, query, { measures := measures_walkQuery }, rfl⟩
    | .features found => ⟨_, 5, _, .features, found, { measures := measures_nodes }, rfl⟩
    | .nodeFeatures found =>
        ⟨_, 6, _, .nodeFeatures, found, { measures := measures_nodes }, rfl⟩
    | .neighborFeatures found =>
        ⟨_, 7, _, .neighborFeatures, found, { measures := measures_nodes }, rfl⟩
    | .contexts found => ⟨_, 8, _, .contexts, found, { measures := measures_nodes }, rfl⟩
    | .hotNodes query => ⟨_, 9, _, .hotNodes, query, { measures := measures_pageQuery }, rfl⟩
  known
    | 0, _ => ⟨_, _, .metaValue, { measures := measures_text }, fun _ => refusesShort_text⟩
    | 1, _ =>
        ⟨_, _, .sharedNegatives, { measures := measures_negativeQuery },
          fun leads => absurd leads (by decide)⟩
    | 2, _ =>
        ⟨_, _, .independentNegatives, { measures := measures_negativeQuery },
          fun leads => absurd leads (by decide)⟩
    | 3, _ =>
        ⟨_, _, .neighbors, { measures := measures_neighborQuery },
          fun leads => absurd leads (by decide)⟩
    | 4, _ => ⟨_, _, .walks, { measures := measures_walkQuery }, fun _ => refusesShort_walkQuery⟩
    | 5, _ => ⟨_, _, .features, { measures := measures_nodes }, fun _ => refusesShort_nodes⟩
    | 6, _ => ⟨_, _, .nodeFeatures, { measures := measures_nodes }, fun _ => refusesShort_nodes⟩
    | 7, _ =>
        ⟨_, _, .neighborFeatures, { measures := measures_nodes }, fun _ => refusesShort_nodes⟩
    | 8, _ => ⟨_, _, .contexts, { measures := measures_nodes }, fun _ => refusesShort_nodes⟩
    | 9, _ =>
        ⟨_, _, .hotNodes, { measures := measures_pageQuery },
          fun leads => absurd leads (by decide)⟩
  unknown
    | _ + 10, _, _ => rfl

/-- Both kinds of features together are a pair of lists. -/
theorem isForm_features : IsForm encodeReply decodeReplyForm Reply.lengths 4
    (pair (list weighted) (list weighted)) fun both => .features both.1 both.2 where
  measures := measures_weightedLists.pair measures_weightedLists

theorem areForms_reply :
    AreForms encodeReply decodeReplyForm Reply.lengths replyForms (List.range replyForms) where
  made
    | .metaValue value => ⟨_, 0, _, .metaValue, value, { measures := measures_text }, rfl⟩
    | .negatives pools => ⟨_, 1, _, .negatives, pools, { measures := measures_nodeLists }, rfl⟩
    | .neighbors lists => ⟨_, 2, _, .neighbors, lists, { measures := measures_nodeLists }, rfl⟩
    | .walks hops => ⟨_, 3, _, .walks, hops, { measures := measures_nodeLists }, rfl⟩
    | .features ofNodes ofNeighbors =>
        ⟨_, 4, _, _, (ofNodes, ofNeighbors), isForm_features, rfl⟩
    | .nodeFeatures found =>
        ⟨_, 5, _, .nodeFeatures, found, { measures := measures_weightedLists }, rfl⟩
    | .neighborFeatures found =>
        ⟨_, 6, _, .neighborFeatures, found, { measures := measures_weightedLists }, rfl⟩
    | .contexts found =>
        ⟨_, 7, _, .contexts, found, { measures := measures_weightedLists }, rfl⟩
    | .hotNodes found => ⟨_, 8, _, .hotNodes, found, { measures := measures_nodes }, rfl⟩
  known
    | 0, _ => ⟨_, _, .metaValue, { measures := measures_text }, fun _ => refusesShort_text⟩
    | 1, _ =>
        ⟨_, _, .negatives, { measures := measures_nodeLists },
          fun _ => measures_nodes.refusesShort_list⟩
    | 2, _ =>
        ⟨_, _, .neighbors, { measures := measures_nodeLists },
          fun _ => measures_nodes.refusesShort_list⟩
    | 3, _ =>
        ⟨_, _, .walks, { measures := measures_nodeLists },
          fun _ => measures_nodes.refusesShort_list⟩
    | 4, _ => ⟨_, _, _, isForm_features, fun _ => measures_weighted.refusesShort_list.pair _⟩
    | 5, _ =>
        ⟨_, _, .nodeFeatures, { measures := measures_weightedLists },
          fun _ => measures_weighted.refusesShort_list⟩
    | 6, _ =>
        ⟨_, _, .neighborFeatures, { measures := measures_weightedLists },
          fun _ => measures_weighted.refusesShort_list⟩
    | 7, _ =>
        ⟨_, _, .contexts, { measures := measures_weightedLists },
          fun _ => measures_weighted.refusesShort_list⟩
    | 8, _ => ⟨_, _, .hotNodes, { measures := measures_nodes }, fun _ => refusesShort_nodes⟩
  unknown
    | _ + 9, _, _ => rfl

/-- The codec of requests is exact about requests whose lengths fit. -/
theorem isExact_request : request.IsExact fun asked => LengthsFit asked.lengths :=
  areForms_request.isExact

/-- The codec of replies is exact about replies whose lengths fit. -/
theorem isExact_reply : reply.IsExact fun given => LengthsFit given.lengths :=
  areForms_reply.isExact

/-! ## Nothing is lost -/

/-- **Every request and every reply comes back as it was sent, whatever octets follow.** -/
theorem requests_and_replies_roundTrip (asked : Request) (given : Reply)
    (fits : LengthsFit asked.lengths) (fits' : LengthsFit given.lengths) (rest : List UInt8) :
    (request.decode (request.encode asked ++ rest) = .ok (asked, rest) ∧
        read request (request.encode asked ++ rest) = .ok asked) ∧
      reply.decode (reply.encode given ++ rest) = .ok (given, rest) ∧
        read reply (reply.encode given ++ rest) = .ok given := by
  have there := isExact_request.reads asked fits rest
  have back := isExact_reply.reads given fits' rest
  refine ⟨⟨there, ?_⟩, back, ?_⟩
  · rw [read, there]
  · rw [read, back]

/-- Walks are asked for from all ends of the range of numbers, and features come back with a
weight that is not a quantity. -/
theorem requests_and_replies_roundTrip_extremes :
    LengthsFit (Request.walks ⟨[0, 18446744073709551615], [3], [], [65535]⟩).lengths ∧
      LengthsFit (Reply.features [[(7, .ofBits 2143289345)], []] []).lengths ∧
      read request (request.encode (.walks ⟨[0, 18446744073709551615], [3], [], [65535]⟩) ++ [9]) =
        .ok (.walks ⟨[0, 18446744073709551615], [3], [], [65535]⟩) ∧
      read reply (reply.encode (.features [[(7, .ofBits 2143289345)], []] []) ++ [9]) =
        .ok (.features [[(7, .ofBits 2143289345)], []] []) := by
  have fits : LengthsFit (Request.walks ⟨[0, 18446744073709551615], [3], [], [65535]⟩).lengths := by
    decide
  have fits' : LengthsFit (Reply.features [[(7, .ofBits 2143289345)], []] []).lengths := by decide
  have both := requests_and_replies_roundTrip _ _ fits fits' [9]
  exact ⟨fits, fits', both.1.2, both.2.2⟩

/-! ## Nothing else is read -/

/-- Messages are written in one way, and nothing else is read as one. -/
structure IsCanonical (codec : Codec μ) (lengths : μ → List Nat) (forms : Nat)
    (leading : List Nat) : Prop where
  /-- Octets are read as a message exactly when they begin with its octets. -/
  decode_eq_ok_iff : ∀ octets message rest, codec.decode octets = .ok (message, rest) ↔
    LengthsFit (lengths message) ∧ octets = codec.encode message ++ rest
  /-- The octets of a message do not begin those of another one. -/
  encode_append_inj : ∀ message other rest rest', LengthsFit (lengths message) →
    LengthsFit (lengths other) → codec.encode message ++ rest = codec.encode other ++ rest' →
      message = other ∧ rest = rest'
  /-- No beginning of a message is read. -/
  truncated : ∀ message front back, LengthsFit (lengths message) →
    codec.encode message = front ++ back → back ≠ [] →
      ∃ fault, read codec front = .error (.codec fault)
  /-- What is read has no list or text that is longer than the octets that it was read from, less
  those of the form and of one length. -/
  length_le : ∀ octets message rest, codec.decode octets = .ok (message, rest) →
    ∀ length ∈ lengths message, length + 12 ≤ octets.length
  /-- A form that begins with a list or text is not read when this is longer than the octets after
  its length. -/
  short : ∀ form ∈ leading, ∀ length < UInt64.size, ∀ octets : List UInt8,
    octets.length < length →
      ∃ fault, read codec ((nat 4).encode form ++ ((nat 8).encode length ++ octets)) =
        .error (.codec fault)
  /-- No form beyond the known ones is read. -/
  unknown : ∀ form, forms ≤ form → form < capacity 4 → ∀ octets,
    read codec ((nat 4).encode form ++ octets) = .error (.codec (.unknownForm form forms))
  /-- A form with a text is not read when the octets of the text are those of no text. -/
  notText : ∀ octets : List UInt8, octets.length < UInt64.size →
    (∀ value, Text.writeUtf8 value ≠ octets) → ∀ rest,
      ∃ fault, read codec ((nat 4).encode 0 ++ ((nat 8).encode octets.length ++ (octets ++ rest))) =
        .error (.codec (.notText fault))

section Canonical

variable {encode : μ → List UInt8}
  {decode : List UInt8 → Nat → Except CodecFault (μ × List UInt8)} {lengths : μ → List Nat}
  {forms : Nat} {leading : List Nat}

theorem read_eq_error {codec : Codec μ} {octets : List UInt8} {fault : CodecFault}
    (refused : codec.decode octets = .error fault) : read codec octets = .error (.codec fault) := by
  rw [read, refused]

/-- After the number of a form, its content is read. -/
theorem decode_formed {form : Nat} (small : form < capacity 4) (octets : List UInt8) :
    (formed encode decode).decode ((nat 4).encode form ++ octets) = decode octets form :=
  (reads_nat small).bind octets _

/-- A message is not read when the content of its form is not. -/
theorem IsForm.read_eq_error {form : Nat} {content : Codec α} {make : α → μ}
    (isForm : IsForm encode decode lengths form content make) {octets : List UInt8}
    {fault : CodecFault} (refused : content.decode octets = .error fault) :
    Wire.read (formed encode decode) ((nat 4).encode form ++ octets) = .error (.codec fault) := by
  apply Wire.read_eq_error
  rw [decode_formed isForm.small, isForm.read, decodeForm, refused]
  rfl

/-- Messages of forms of which the first is a text are canonical. -/
theorem AreForms.isCanonical (areForms : AreForms encode decode lengths forms leading)
    (below : ∀ form ∈ leading, form < forms) (make : String → μ)
    (first : IsForm encode decode lengths 0 text make) :
    IsCanonical (formed encode decode) lengths forms leading where
  decode_eq_ok_iff octets message rest := by
    constructor
    · exact areForms.isExact.written octets message rest
    · rintro ⟨fits, rfl⟩
      exact areForms.isExact.reads message fits rest
  encode_append_inj message other rest rest' fits fits' same :=
    areForms.isExact.encode_append_inj fits fits' same
  truncated message front back fits split missing := by
    obtain ⟨fault, refused⟩ := areForms.isExact.truncated fits split missing
    exact ⟨fault, read_eq_error refused⟩
  length_le octets message rest run length member := by
    obtain ⟨-, rfl⟩ := areForms.isExact.written octets message rest run
    rw [List.length_append]
    exact Nat.le_add_right_of_le (areForms.length_add_le message member)
  short form leads length small octets short := by
    obtain ⟨α, content, make, isForm, refuses⟩ := areForms.known form (below form leads)
    obtain ⟨fault, refused⟩ := refuses leads length small octets short
    exact ⟨fault, isForm.read_eq_error refused⟩
  unknown form beyond small octets := by
    apply read_eq_error
    rw [decode_formed small, areForms.unknown form beyond]
  notText octets small nothing rest := by
    cases run : Text.readUtf8 octets with
    | ok value => exact absurd (eq_writeUtf8_of_readUtf8 run).symm (nothing value)
    | error fault =>
        exact ⟨fault, first.read_eq_error (decode_text_of_notText small run rest)⟩

end Canonical

/-- **Requests and replies are written in one way, and nothing else is read as one.** The form of
a reply always begins with a list or text, that of a request does when it asks for an entry, for
walks or for entries of nodes. -/
theorem requests_and_replies_canonical :
    IsCanonical request Request.lengths requestForms [0, 4, 5, 6, 7, 8] ∧
      IsCanonical reply Reply.lengths replyForms (List.range replyForms) := by
  constructor
  · apply areForms_request.isCanonical (by decide) .metaValue
    exact { measures := measures_text }
  · apply areForms_reply.isCanonical (by decide) .metaValue
    exact { measures := measures_text }

/-- A request for neighbors of one node, its last octet lost. -/
theorem requests_and_replies_canonical_truncated :
    LengthsFit (Request.neighbors ⟨-1, [5]⟩).lengths ∧
      ∃ fault, read request [3, 0, 0, 0, 255, 255, 255, 255, 1, 0, 0, 0, 0, 0, 0, 0,
        5, 0, 0, 0, 0, 0, 0] = .error (.codec fault) := by
  have fits : LengthsFit (Request.neighbors ⟨-1, [5]⟩).lengths := by decide
  exact ⟨fits, requests_and_replies_canonical.1.truncated _ _ [0] fits rfl (by decide)⟩

end Wire

end ShardedGraph
