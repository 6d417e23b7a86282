/-
Streaming decoders and the loop that feeds them from fragments.

A decoder looks at the head of a buffer and says that a frame is complete, that more is needed, or that the stream is beyond
repair. When its verdicts survive more input, how a stream was cut does not matter: a loop that appends fragments to a
buffer, decodes, and drops what was consumed delivers what decoding the whole stream would.

- `receive_spec`: what one call of the loop returns is the first thing the whole stream decodes to.
- `receiveAll_eq`: all calls together deliver the decoding of the whole stream.
-/
import Mathlib.Tactic

namespace FaultContainment.Lib

/-- what a decoder makes of the head of a buffer -/
inductive Verdict (α ε : Type) where
  | complete (frame : α) (consumed : ℕ)
  | needMore
  | fatal (fault : ε)

/-- a decoder whose verdicts survive more input -/
structure StreamDecoder (β α ε : Type) where
  decode : List β → Verdict α ε
  /-- no frame is shorter -/
  header : ℕ
  /-- what is still needed to tell is less -/
  pending : ℕ
  header_pos : 0 < header
  complete_bounds : ∀ {bs a n}, decode bs = .complete a n → header ≤ n ∧ n ≤ bs.length
  needMore_short : ∀ {bs}, decode bs = .needMore → bs.length < pending
  stable : ∀ {bs}, decode bs ≠ .needMore → ∀ more, decode (bs ++ more) = decode bs

/-- how a stream ends: with a fault, with an incomplete rest, or at the ceiling of the buffer -/
inductive Ending (β ε : Type) where
  | fatal (fault : ε)
  | incomplete (rest : List β)
  | overflow

/-- what one call of the receive loop returns -/
inductive Received (α ε : Type) where
  | frame (a : α)
  | fatal (fault : ε)
  | closed
  | overflow

namespace StreamDecoder

variable {β α ε : Type} (d : StreamDecoder β α ε)

/-- the frames of a whole stream, and how it ends -/
def decodeAll (bs : List β) : List α × Ending β ε :=
  match _h : d.decode bs with
  | .complete a n => (a :: (decodeAll (bs.drop n)).1, (decodeAll (bs.drop n)).2)
  | .needMore => ([], .incomplete bs)
  | .fatal e => ([], .fatal e)
termination_by bs.length
decreasing_by
  all_goals
    have hbounds := d.complete_bounds _h
    have hpos := d.header_pos
    rw [List.length_drop]
    omega

/-- one call of the receive loop: decode what is buffered, and append fragments until it tells -/
def receive (ceiling : ℕ) (residual : List β) : List (List β) → Received α ε × List β × List (List β)
  | [] =>
    match d.decode residual with
    | .complete a n => (.frame a, residual.drop n, [])
    | .fatal e => (.fatal e, residual, [])
    | .needMore => (.closed, residual, [])
  | chunk :: incoming =>
    match d.decode residual with
    | .complete a n => (.frame a, residual.drop n, chunk :: incoming)
    | .fatal e => (.fatal e, residual, chunk :: incoming)
    | .needMore =>
      if ceiling < residual.length + chunk.length then (.overflow, residual, incoming)
      else receive ceiling (residual ++ chunk) incoming

/-- the bytes that are buffered or still to come -/
def total (residual : List β) (incoming : List (List β)) : ℕ := (residual ++ incoming.flatten).length

theorem receive_total {ceiling : ℕ} {residual : List β} {incoming : List (List β)} {a : α} {r : List β}
    {cs : List (List β)} (h : d.receive ceiling residual incoming = (.frame a, r, cs)) :
    total r cs < total residual incoming := by
  have hpos := d.header_pos
  induction incoming generalizing residual with
  | nil =>
    unfold receive at h
    split at h
    · next b n hn =>
      obtain ⟨-, rfl, rfl⟩ := by simpa using h
      have hbounds := d.complete_bounds hn
      simp only [total, List.flatten_nil, List.append_nil, List.length_drop]
      omega
    · simp at h
    · simp at h
  | cons chunk incoming ih =>
    unfold receive at h
    split at h
    · next b n hn =>
      obtain ⟨-, rfl, rfl⟩ := by simpa using h
      have hbounds := d.complete_bounds hn
      simp only [total, List.length_append, List.length_drop]
      omega
    · simp at h
    · split_ifs at h
      · simp at h
      · have hlt := ih h
        simpa [total, Nat.add_assoc] using hlt

/-- calls of the receive loop until one returns no frame -/
def receiveAll (ceiling : ℕ) (residual : List β) (incoming : List (List β)) : List α × Ending β ε :=
  match _h : d.receive ceiling residual incoming with
  | (.frame a, r, cs) => (a :: (receiveAll ceiling r cs).1, (receiveAll ceiling r cs).2)
  | (.fatal e, _, _) => ([], .fatal e)
  | (.closed, r, _) => ([], .incomplete r)
  | (.overflow, _, _) => ([], .overflow)
termination_by total residual incoming
decreasing_by all_goals exact d.receive_total _h

/-- what is decoded of a stream whose head is already decoded -/
theorem decodeAll_complete {bs : List β} {a : α} {n : ℕ} (h : d.decode bs = .complete a n) (more : List β) :
    d.decodeAll (bs ++ more) = (a :: (d.decodeAll (bs.drop n ++ more)).1, (d.decodeAll (bs.drop n ++ more)).2) := by
  have hwhole : d.decode (bs ++ more) = .complete a n := by
    rw [d.stable (by rw [h]; simp), h]
  rw [decodeAll]
  split
  · next b m hm =>
    obtain ⟨rfl, rfl⟩ := by simpa using hwhole.symm.trans hm
    rw [List.drop_append_of_le_length (d.complete_bounds h).2]
  · next hm => simp [hwhole] at hm
  · next e hm => simp [hwhole] at hm

theorem decodeAll_fatal {bs : List β} {e : ε} (h : d.decode bs = .fatal e) (more : List β) :
    d.decodeAll (bs ++ more) = ([], .fatal e) := by
  have hwhole : d.decode (bs ++ more) = .fatal e := by
    rw [d.stable (by rw [h]; simp), h]
  rw [decodeAll]
  split
  · next b m hm => simp [hwhole] at hm
  · next hm => simp [hwhole] at hm
  · next e' hm =>
    obtain rfl := by simpa using hwhole.symm.trans hm
    rfl

theorem decodeAll_needMore {bs : List β} (h : d.decode bs = .needMore) : d.decodeAll bs = ([], .incomplete bs) := by
  rw [decodeAll]
  split
  · next hm => simp [h] at hm
  · rfl
  · next hm => simp [h] at hm

/-- **One call.** From fragments no longer than `chunk`, under a ceiling that leaves room for one of them, a call returns
the first thing the whole stream decodes to, and never meets the ceiling. -/
theorem receive_spec {ceiling chunk : ℕ} (hroom : d.pending + chunk ≤ ceiling + 1) (residual : List β)
    {incoming : List (List β)} (hchunks : ∀ c ∈ incoming, c.length ≤ chunk) :
    (∃ a r cs, d.receive ceiling residual incoming = (.frame a, r, cs) ∧ (∀ c ∈ cs, c ∈ incoming) ∧
      d.decodeAll (residual ++ incoming.flatten) = (a :: (d.decodeAll (r ++ cs.flatten)).1, (d.decodeAll (r ++ cs.flatten)).2)) ∨
    (∃ e r cs, d.receive ceiling residual incoming = (.fatal e, r, cs) ∧
      d.decodeAll (residual ++ incoming.flatten) = ([], .fatal e)) ∨
    ∃ r cs, d.receive ceiling residual incoming = (.closed, r, cs) ∧
      d.decodeAll (residual ++ incoming.flatten) = ([], .incomplete r) := by
  induction incoming generalizing residual with
  | nil =>
    cases h : d.decode residual with
    | complete a n =>
      exact .inl ⟨a, residual.drop n, [], by simp [receive, h], by simp, d.decodeAll_complete h _⟩
    | fatal e => exact .inr (.inl ⟨e, residual, [], by simp [receive, h], d.decodeAll_fatal h _⟩)
    | needMore =>
      refine .inr (.inr ⟨residual, [], by simp [receive, h], ?_⟩)
      rw [List.flatten_nil, List.append_nil, d.decodeAll_needMore h]
  | cons c incoming ih =>
    obtain ⟨hc, hchunks⟩ := List.forall_mem_cons.mp hchunks
    cases h : d.decode residual with
    | complete a n =>
      exact .inl ⟨a, residual.drop n, c :: incoming, by simp [receive, h], fun _ => id, d.decodeAll_complete h _⟩
    | fatal e => exact .inr (.inl ⟨e, residual, c :: incoming, by simp [receive, h], d.decodeAll_fatal h _⟩)
    | needMore =>
      have hshort := d.needMore_short h
      have hfits : ¬ ceiling < residual.length + c.length := by omega
      have hstep : d.receive ceiling residual (c :: incoming) = d.receive ceiling (residual ++ c) incoming := by
        simp [receive, h, hfits]
      rw [hstep, List.flatten_cons, ← List.append_assoc]
      rcases ih (residual ++ c) hchunks with ⟨a, r, cs, hr, hmem, hd⟩ | hrest
      · exact .inl ⟨a, r, cs, hr, fun x hx => List.mem_cons_of_mem c (hmem x hx), hd⟩
      · exact .inr hrest

/-- **Fragments do not matter.** The calls deliver the decoding of the whole stream, whatever it was cut into. -/
theorem receiveAll_eq {ceiling chunk : ℕ} (hroom : d.pending + chunk ≤ ceiling + 1) (residual : List β)
    (incoming : List (List β)) (hchunks : ∀ c ∈ incoming, c.length ≤ chunk) :
    d.receiveAll ceiling residual incoming = d.decodeAll (residual ++ incoming.flatten) := by
  induction hn : total residual incoming using Nat.strong_induction_on generalizing residual incoming with
  | _ n ih =>
    rw [receiveAll]
    rcases d.receive_spec hroom residual hchunks with ⟨a, r, cs, hr, hmem, hd⟩ | ⟨e, r, cs, hr, hd⟩ | ⟨r, cs, hr, hd⟩
    · have hnext := ih _ (hn ▸ d.receive_total hr) r cs (fun c hc => hchunks c (hmem c hc)) rfl
      rw [hd, ← hnext]
      split <;> next h => simp_all
    · rw [hd]
      split <;> next h => simp_all
    · rw [hd]
      split <;> next h => simp_all

end StreamDecoder

end FaultContainment.Lib
