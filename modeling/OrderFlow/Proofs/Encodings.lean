import OrderFlow.Proofs.Correlation
import OrderFlow.Proofs.Fields

/-! # Two written forms of an announcement, and three readers

    The canonical form of an announcement has the names in alphabetical order, and
    its record form has them in the order of the fields.  One reader takes a body from
    outside, one takes a record, and one looks for the correlation id alone.

    Writers and readers meet at the data that a text says (`Shows`).  Either form says
    data that shows the announcement, and all that a reader answers is read off what
    the data shows.  Only the reader of records leaves a correlation id as it is; the
    other two bring it into normal form. -/

namespace OrderFlow

open Data

/-- What is readable in every part is read. -/
theorem Json.parse?_of_parseStrict? {s : String} {v : Value} (h : parseStrict? s = some v) :
    parse? s = some v := by
  obtain ⟨v', hparse, hreadable⟩ := Option.bind_eq_some_iff.mp h
  split at hreadable
  · cases hreadable
    exact hparse
  · cases hreadable

namespace Payload

/-- The two written forms. -/
def forms (p : Payload) : List String :=
  [p.toBody, Json.toText p.toValue]

/-- Reads the record form out of a text. -/
def ofRecord? (body : String) : Option Payload :=
  (Json.parse? body).bind ofValue?

/-- **The data shows the announcement**: its entries are there, under their names, and
    none of them twice. -/
structure Shows (v : Value) (p : Payload) : Prop where
  order : (v.last? "orderId").bind Value.text? = some (toString p.order)
  correlation : correlationOf v = normalize p.correlation
  record : ofValue? v = some p

section forms
variable {p : Payload} {body : String} {v : Value}

/-- The reader of records, where all fields are there. -/
theorem ofValue?_of_fields {correlation : Option String}
    (h : fields? fieldNames false v =
      some [some (ofOrderId p.order), some (Json.textOrNull correlation)]) :
    ofValue? v = some ⟨p.order, correlation⟩ := by
  have horder : required orderId? (some (ofOrderId p.order)) = some p.order := by
    rw [required, Option.bind_some, Data.orderId?_ofOrderId]
  have hcorrelation : Value.optional Value.text? (some (Json.textOrNull correlation)) =
      some correlation := by
    cases correlation <;> rfl
  unfold ofValue?
  simp only [h, Option.bind_eq_bind, Option.bind_some, horder, hcorrelation]

/-- **Names in alphabetical order.** -/
theorem shows_canonical (p : Payload) : Shows (.record (Json.textEntries
    [("correlationId", p.correlation), ("orderId", some (toString p.order))])) p where
  order := rfl
  correlation := correlationOf_toBody p
  record := ofValue?_of_fields rfl

/-- **Names in the order of the fields.** -/
theorem shows_fields (p : Payload) : Shows (.record (Json.textEntries
    [("orderId", some (toString p.order)), ("correlationId", p.correlation)])) p where
  order := rfl
  correlation := by cases p.correlation <;> rfl
  record := ofValue?_of_fields rfl

/-- **Either form says data that shows the announcement.** -/
theorem exists_shows (h : body ∈ p.forms) : ∃ v, Json.parseStrict? body = some v ∧ Shows v p := by
  rcases List.mem_cons.mp h with rfl | h
  · exact ⟨_, p.parseStrict?_toBody, p.shows_canonical⟩
  · obtain rfl := List.mem_singleton.mp h
    have hwritten : p.toValue = .record (Json.textEntries
        [("orderId", some (toString p.order)), ("correlationId", p.correlation)]) := by
      unfold toValue
      cases p.correlation <;> rfl
    refine ⟨_, ?_, p.shows_fields⟩
    rw [hwritten, Json.parseStrict?_toText]

/-- A body is read in normal form. -/
theorem ofBody?_of_mem_forms (h : body ∈ p.forms) :
    ofBody? body = .ok (make p.order p.correlation) := by
  obtain ⟨v, hparse, hshows⟩ := exists_shows h
  rw [ofBody?_of_record hparse hshows.order, hshows.correlation]
  rfl

/-- A record is read as it was written. -/
theorem ofRecord?_of_mem_forms (h : body ∈ p.forms) : ofRecord? body = some p := by
  obtain ⟨v, hparse, hshows⟩ := exists_shows h
  unfold ofRecord?
  rw [Json.parse?_of_parseStrict? hparse, Option.bind_some, hshows.record]

/-- What comes from outside is in normal form. -/
theorem make_of_ofBody? (h : ofBody? body = .ok p) : make p.order p.correlation = p := by
  have hcorrelation := correlationIn_of_ofBody? h
  have hnormal : normalize p.correlation = p.correlation := by
    rw [← hcorrelation]
    unfold correlationIn
    cases Json.parseStrict? body with
    | none => rfl
    | some v => exact normalize_normalize _
  unfold make
  rw [hnormal]

/-- **The forms and the readers agree.**  For any order and any correlation id `c`, whatever
    characters it is made of:

    * the announcement of the order with `c` is read out of both of its forms, as a body and
      as a record, and so is its correlation id;
    * the announcement that has `c` as it is, which need not be in normal form, is read out of
      both of its forms as it is by the reader of records, and in normal form by the reader of
      bodies;
    * out of any body that is read at all, the correlation id is read alike, and what is read
      is an announcement in normal form. -/
theorem forms_and_readers_agree (order : OrderId) (c : Option String) :
    (∀ body ∈ (make order c).forms, ofBody? body = .ok (make order c) ∧
      ofRecord? body = some (make order c) ∧
      correlationIn body = (make order c).correlation) ∧
    (∀ body ∈ forms ⟨order, c⟩, ofRecord? body = some ⟨order, c⟩ ∧
      ofBody? body = .ok (make order c)) ∧
    ∀ body p, ofBody? body = .ok p →
      correlationIn body = p.correlation ∧ make p.order p.correlation = p := by
  refine ⟨fun body hbody => ?_, fun body hbody => ?_, fun body p hread => ?_⟩
  · have hread : ofBody? body = .ok (make order c) := by
      rw [ofBody?_of_mem_forms hbody]
      show Except.ok (⟨order, normalize (normalize c)⟩ : Payload) = .ok ⟨order, normalize c⟩
      rw [normalize_normalize]
    exact ⟨hread, ofRecord?_of_mem_forms hbody, correlationIn_of_ofBody? hread⟩
  · exact ⟨ofRecord?_of_mem_forms hbody, ofBody?_of_mem_forms hbody⟩
  · exact ⟨correlationIn_of_ofBody? hread, make_of_ofBody? hread⟩

/-- Quotes, a backslash, a line break and a blank at either end; and a body with an entry that
    nobody knows and a correlation id given twice. -/
theorem forms_and_readers_agree_quoted :
    ofRecord? (toBody ⟨⟨.versionFour 1⟩, some " \"a\\b\"\n"⟩) =
      some ⟨⟨.versionFour 1⟩, some " \"a\\b\"\n"⟩ ∧
    ofBody? (Json.toText (toValue ⟨⟨.versionFour 1⟩, some " \"a\\b\"\n"⟩)) =
      .ok ⟨⟨.versionFour 1⟩, some "\"a\\b\""⟩ ∧
    correlationIn ("\x7b\"x\":[1],\"correlationId\":\"a\",\"orderId\":\"" ++
      toString (Uuid.versionFour 1) ++ "\",\"correlationId\":\" b \"\x7d") = some "b" := by
  obtain ⟨-, hraw, houtside⟩ :=
    forms_and_readers_agree ⟨.versionFour 1⟩ (some " \"a\\b\"\n")
  have hmake : make ⟨.versionFour 1⟩ (some " \"a\\b\"\n") =
      ⟨⟨.versionFour 1⟩, some "\"a\\b\""⟩ := by
    decide +kernel
  refine ⟨(hraw _ List.mem_cons_self).1, ?_, ?_⟩
  · rw [← hmake]
    exact (hraw _ (List.mem_cons_of_mem _ (List.mem_singleton_self _))).2
  · exact (houtside _ ⟨⟨.versionFour 1⟩, some "b"⟩ (by decide +kernel)).1

end forms

end Payload

end OrderFlow
