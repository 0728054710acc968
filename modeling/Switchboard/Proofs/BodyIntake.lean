import Switchboard.Proofs.Echo
import Switchboard.Server.Session

/-!
# Switchboard.Proofs.BodyIntake

How a body comes in.  What a stream comes to depends on the octets that arrive
before the first error, and not on how they are cut; what the octets are read as
depends on the content type, and not on how it is spelled, as long as its field
is readable at all.

* `Arrives` — what a stream comes to, and `readBody_iff`, that this is what is
  read;
* `Parsing.bodyOf` — the body of a request that is taken in, and
  `Parsing.bodyOf_congr`, what makes no difference to it;
* `body_intake` — from the stream to the answer.
-/

namespace Switchboard.Http

/-! ## Streams -/

/-- What a stream comes to.  An error behind octets that are already too many is
not reached, and an error in front of them hides them. -/
inductive Arrives (limit : Nat) : List Chunk → Except Rejection Bytes → Prop where
  | whole (pieces : List Bytes) (fits : pieces.flatten.length ≤ limit) :
      Arrives limit (pieces.map .octets) (.ok pieces.flatten)
  | tooLarge (pieces : List Bytes) (rest : List Chunk) (exceeds : limit < pieces.flatten.length) :
      Arrives limit (pieces.map .octets ++ rest) (.error .bodyTooLarge)
  | broken (pieces : List Bytes) (reason : String) (rest : List Chunk)
      (fits : pieces.flatten.length ≤ limit) :
      Arrives limit (pieces.map .octets ++ .broken reason :: rest) (.error (.brokenBody reason))

variable {limit size : Nat} {collected pieces : List Bytes} {chunks : List Chunk}
  {result : Except Rejection Bytes}

/-- What fits is collected, and the rest is looked at. -/
theorem collectBody_append (fits : size + pieces.flatten.length ≤ limit) (rest : List Chunk) :
    collectBody limit size collected (pieces.map .octets ++ rest) =
      collectBody limit (size + pieces.flatten.length) (pieces.reverse ++ collected) rest := by
  induction pieces generalizing size collected with
  | nil => rfl
  | cons bs pieces ih =>
    rw [List.flatten_cons, List.length_append] at fits
    rw [List.map_cons, List.cons_append, collectBody, if_neg (by omega), ih (by omega),
      List.flatten_cons, List.length_append, List.reverse_cons, List.append_assoc,
      List.singleton_append, Nat.add_assoc]

/-- The first piece that does not fit ends the reading. -/
theorem collectBody_tooLarge (exceeds : limit < size + pieces.flatten.length)
    (fits : size ≤ limit) (rest : List Chunk) :
    collectBody limit size collected (pieces.map .octets ++ rest) = .error .bodyTooLarge := by
  induction pieces generalizing size collected with
  | nil =>
    rw [List.flatten_nil, List.length_nil] at exceeds
    omega
  | cons bs pieces ih =>
    rw [List.flatten_cons, List.length_append] at exceeds
    rw [List.map_cons, List.cons_append, collectBody]
    by_cases here : limit < size + bs.length
    · rw [if_pos here]
    · rw [if_neg here]
      exact ih (by omega) (by omega)

/-- The collected pieces and what is still to come, as one stream. -/
theorem arrives_collectBody (collected : List Bytes) (fits : collected.flatten.length ≤ limit)
    (chunks : List Chunk) :
    Arrives limit (collected.reverse.map .octets ++ chunks)
      (collectBody limit collected.flatten.length collected chunks) := by
  have length_reverse (ps : List Bytes) : ps.reverse.flatten.length = ps.flatten.length := by
    simp [List.length_flatten, List.sum_reverse]
  induction chunks generalizing collected with
  | nil =>
    rw [List.append_nil, collectBody]
    exact .whole _ (by rwa [length_reverse])
  | cons chunk chunks ih =>
    cases chunk with
    | broken reason => exact .broken _ reason chunks (by rwa [length_reverse])
    | octets bs =>
      have length_cons :
          (bs :: collected).flatten.length = collected.flatten.length + bs.length := by
        rw [List.flatten_cons, List.length_append, Nat.add_comm]
      have stream : collected.reverse.map Chunk.octets ++ .octets bs :: chunks =
          (bs :: collected).reverse.map .octets ++ chunks := by simp
      rw [stream, collectBody]
      by_cases here : limit < collected.flatten.length + bs.length
      · rw [if_pos here]
        exact .tooLarge _ chunks (by rwa [length_reverse, length_cons])
      · rw [if_neg here, ← length_cons]
        exact ih (bs :: collected) (by omega)

/-- Reading a stream gives what the stream comes to. -/
theorem readBody_iff : readBody chunks = result ↔ Arrives bodyLimit chunks result := by
  constructor
  · rintro rfl
    exact arrives_collectBody [] (Nat.zero_le _) chunks
  · intro h
    cases h with
    | whole pieces fits => exact readBody_octets fits
    | tooLarge pieces rest exceeds =>
      exact collectBody_tooLarge (by rwa [Nat.zero_add]) (Nat.zero_le _) rest
    | broken pieces reason rest fits =>
      rw [readBody, collectBody_append (by rwa [Nat.zero_add])]
      rfl

/-! ## Requests -/

variable {q q' : Request} {p p' : Parsing} {params params' : Dict String} {bs : Bytes}

/-- A request sends these octets, in any chunks and without an error. -/
def Request.Sends (q : Request) (bs : Bytes) : Prop :=
  ∃ pieces : List Bytes, q.body = pieces.map .octets ∧ pieces.flatten = bs

/-- The body of a request that is taken in. -/
def Parsing.bodyOf (p : Parsing) (params : Dict String) (q : Request) : Except Rejection Json :=
  (p.requestSide params q).map (·.body)

theorem Parsing.bodyOf_eq (p : Parsing) (params : Dict String) (q : Request) :
    p.bodyOf params q =
      if p.body then readBody q.body >>= parseBody q.contentType else .ok .null := by
  rw [bodyOf, requestSide]
  by_cases h : p.body
  · rw [if_pos h, if_pos h]
    cases readBody q.body >>= parseBody q.contentType <;> rfl
  · rw [if_neg h, if_neg h]
    rfl

theorem Parsing.bodyOf_eq_error {rejection : Rejection} :
    p.bodyOf params q = .error rejection ↔ p.requestSide params q = .error rejection := by
  rw [bodyOf]
  cases p.requestSide params q <;> simp [Except.map]

/-- The octets that arrive are read as the content type says. -/
theorem Parsing.bodyOf_of_arrives (parsed : p.body = true)
    (arrives : Arrives bodyLimit q.body (.ok bs)) :
    p.bodyOf params q = parseBody q.contentType bs := by
  rw [bodyOf_eq, if_pos parsed, readBody_iff.mpr arrives]
  rfl

theorem Parsing.bodyOf_of_rejected {rejection : Rejection} (parsed : p.body = true)
    (arrives : Arrives bodyLimit q.body (.error rejection)) :
    p.bodyOf params q = .error rejection := by
  rw [bodyOf_eq, if_pos parsed, readBody_iff.mpr arrives]
  rfl

/-- The octets alone decide what a stream without an error comes to. -/
theorem Request.Sends.readBody_eq (h : q.Sends bs) :
    readBody q.body = if bs.length ≤ bodyLimit then .ok bs else .error .bodyTooLarge := by
  obtain ⟨pieces, body, rfl⟩ := h
  rw [body]
  split
  · rename_i fits
    exact readBody_octets fits
  · rename_i exceeds
    have := Arrives.tooLarge pieces [] (Nat.lt_of_not_le exceeds)
    rw [List.append_nil] at this
    exact readBody_iff.mpr this

theorem parseBody_congr {contentType contentType' : String}
    (kind : MediaKind.ofContentType contentType = MediaKind.ofContentType contentType')
    (bs : Bytes) : parseBody contentType bs = parseBody contentType' bs := by
  rw [parseBody, parseBody, kind]

/-- Neither the chunks nor the spelling of the content type make a difference. -/
theorem Parsing.bodyOf_congr (same : p.body = p'.body) (sends : q.Sends bs)
    (sends' : q'.Sends bs) (spelled : Option.Rel Respelled q.readable? q'.readable?) :
    p.bodyOf params q = p'.bodyOf params' q' := by
  have parse : parseBody q.contentType = parseBody q'.contentType :=
    funext (parseBody_congr (mediaKind_respelled spelled))
  rw [bodyOf_eq, bodyOf_eq, same, sends.readBody_eq, sends'.readBody_eq, parse]

theorem Parsing.bodyOf_empty (sends : q.Sends []) : p.bodyOf params q = .ok .null := by
  rw [bodyOf_eq, sends.readBody_eq]
  split <;> rfl

end Switchboard.Http

/-! ## Routers -/

namespace Switchboard.Server

open Http

namespace Router

variable {σ : Type} {r : Router σ} {q : Request} {h : Handler σ} {params : Dict String}
  {rejection : Rejection}

/-- A request is turned down with a status. -/
structure TurnsDown (r : Router σ) (q : Request) (rejection : Rejection) (status : Nat) : Prop where
  /-- Its handling is over before it has begun: neither the handler nor a hook
  has a turn. -/
  ended : r.handle q = .done (answer r.layers q.method none rejection.response)
  /-- The answer is all that a session gives for it. -/
  answered : ∀ s : Session σ, Session.ask r s q =
    (some (answer r.layers q.method none rejection.response), { s with woken := false })
  status : (answer r.layers q.method none rejection.response).status = status

/-- How a router takes bodies in that it parses. -/
structure ParsesBodies (r : Router σ) : Prop where
  /-- The octets that arrive are read as the content type says. -/
  accepted : ∀ q params bs, Arrives bodyLimit q.body (.ok bs) →
    r.parsing.bodyOf params q = parseBody q.contentType bs
  tooLarge : ∀ q h params, r.routes.look q.method q.target.path = .handler h params →
    Arrives bodyLimit q.body (.error .bodyTooLarge) → r.TurnsDown q .bodyTooLarge 413
  broken : ∀ q h params reason, r.routes.look q.method q.target.path = .handler h params →
    Arrives bodyLimit q.body (.error (.brokenBody reason)) →
    r.TurnsDown q (.brokenBody reason) 400
  /-- Chunks make no difference, and neither does the spelling of a content type
  that is readable. -/
  alike : ∀ q q' params params' bs, q.Sends bs → q'.Sends bs →
    Option.Rel Respelled q.readable? q'.readable? →
    r.parsing.bodyOf params q = r.parsing.bodyOf params' q'
  empty : ∀ q params, q.Sends [] → r.parsing.bodyOf params q = .ok .null

/-- How a router takes bodies in. -/
structure TakesBodies (r : Router σ) : Prop where
  /-- A stream is read as what arrives of it. -/
  read : ∀ chunks result, readBody chunks = result ↔ Arrives bodyLimit chunks result
  parsed : r.parsing.body = true → r.ParsesBodies
  ignored : r.parsing.body = false → ∀ q params, r.parsing.bodyOf params q = .ok .null

theorem ask_done {s : Session σ} {response : Response} (ended : r.handle q = .done response) :
    Session.ask r s q = (some response, { s with woken := false }) := by
  rw [Session.ask, ended]
  rfl

theorem turnsDown (found : r.routes.look q.method q.target.path = .handler h params)
    (rejected : r.parsing.bodyOf params q = .error rejection) :
    r.TurnsDown q rejection rejection.status := by
  have ended : r.handle q = .done (answer r.layers q.method none rejection.response) := by
    rw [handle, found]
    show (r.endpoint h params q).bind _ = _
    rw [endpoint, Parsing.bodyOf_eq_error.mp rejected]
    rfl
  refine ⟨ended, fun s => ask_done ended, ?_⟩
  rw [answer]
  split <;> rfl

/-- Bodies are taken in whatever their chunks are, and however their content type
is spelled, as long as it is readable. -/
theorem body_intake (r : Router σ) : r.TakesBodies where
  read _ _ := readBody_iff
  parsed on := {
    accepted := fun _ _ _ arrives => Parsing.bodyOf_of_arrives on arrives
    tooLarge := fun _ _ _ found arrives => turnsDown found (Parsing.bodyOf_of_rejected on arrives)
    broken := fun _ _ _ _ found arrives =>
      turnsDown found (Parsing.bodyOf_of_rejected on arrives)
    alike := fun _ _ _ _ _ sends sends' spelled => Parsing.bodyOf_congr rfl sends sends' spelled
    empty := fun _ _ sends => Parsing.bodyOf_empty sends }
  ignored off _ _ := by
    rw [Parsing.bodyOf_eq, off]
    rfl

end Router

/-- A parameter that is not readable hides the media type in front of it: the same
octets are an object behind the one field and a string behind the other. -/
theorem unreadable_parameter_hides_type :
    ¬ ∀ (p : Parsing) (q q' : Request) (params : Dict String) (bs : Bytes),
      q.Sends bs → q'.Sends bs → Option.Rel Respelled q.declared? q'.declared? →
      p.bodyOf params q = p.bodyOf params q' := by
  intro alike
  let v : Json := .object [("a", .int 1)]
  let json := Utf8.encode "application/json"
  let behind := Utf8.encode " charset=é"
  obtain ⟨octets, fits, nonempty, object⟩ : ∃ octets, octets.length ≤ bodyLimit ∧
      octets.isEmpty = false ∧ parseBody "application/json" octets = .ok v := by
    have kind : MediaKind.ofContentType "application/json" = .json := by decide +kernel
    have word : Json.FitsWord 1 := by decide
    have well : v.WellFormed := ⟨List.pairwise_singleton _ _, word, trivial⟩
    exact ⟨Utf8.encode v.text, by decide +kernel, by decide +kernel,
      parseBody_text kind ⟨well, by decide, List.forall_mem_nil _⟩⟩
  have string : parseBody "" octets = .ok (.string (Utf8.decodeLossy octets)) :=
    parseBody_undeclared nonempty
  let request (type : Bytes) : Request :=
    { method := "POST", headers := [⟨"content-type", type⟩], body := [.octets octets] }
  have sends (type : Bytes) : (request type).Sends octets :=
    ⟨[octets], rfl, List.flatten_singleton⟩
  have read (type : Bytes) :
      ({} : Parsing).bodyOf .empty (request type) = parseBody (request type).contentType octets :=
    Parsing.bodyOf_of_arrives rfl
      (readBody_iff.mp ((sends type).readBody_eq.trans (if_pos fits)))
  have shown : ∀ b ∈ json, Header.isReadable b = true := by decide +kernel
  have hidden : ∃ b ∈ json ++ 59 :: behind, Header.isReadable b = false := by decide +kernel
  have declared : (request json).contentType = "application/json" := by
    rw [Request.contentType_of_readable rfl shown]
    decide +kernel
  have undeclared : (request (json ++ 59 :: behind)).contentType = "" :=
    Request.contentType_of_unreadable rfl hidden
  have same := alike {} (request (json ++ 59 :: behind)) (request json) .empty _ (sends _) (sends _)
    (.some (.parameters json behind))
  rw [read, read, declared, undeclared, string, object] at same
  exact Json.noConfusion (Except.ok.inj same)

end Switchboard.Server
