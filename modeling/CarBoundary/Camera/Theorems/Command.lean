import CarBoundary.Camera.Lemmas.Command

/-!
# Replies that come late

A reply may be lost, come late or come twice. The camera repeats the tag of the command in its reply, and `cam_tag` is
incremented only for commands that succeed.
-/

namespace CarBoundary

/-- Let each reply that is accepted be the one to some command before, which carries the tag of that command. As long as
fewer than 65536 commands succeed, it is the reply to the command itself or to one of those that failed right before
it. No reply is accepted twice, nor are replies accepted out of order. -/
theorem accepted_replies_are_fresh {tag : UInt16} {calls : List Command} (origin : ℕ → ℕ) :
    let log := Machine.trace commandStep commandLog tag calls
    log.countP Exchange.accepted < 65536 →
    (∀ (k : ℕ) (x : Exchange) (reply : ControlIn), log[k]? = some x → x.accepted = true → x.command.reply = some reply →
      origin k ≤ k ∧ ∃ y, log[origin k]? = some y ∧ (CamHdr.read reply.ibuf).tag = y.tag) →
    ∀ (k : ℕ) (x : Exchange), log[k]? = some x → x.accepted = true →
      (∀ (j : ℕ) (y : Exchange), origin k ≤ j → j < k → log[j]? = some y → y.accepted = false) ∧
      ∀ (k' : ℕ) (x' : Exchange), k < k' → log[k']? = some x' → x'.accepted = true → origin k < origin k' := by
  intro log hfew horigin
  -- the command that is answered was sent after as many successes
  have hsame {k : ℕ} {x : Exchange} (hx : log[k]? = some x) (haccepted : x.accepted = true) :
      origin k ≤ k ∧ Tags.before Exchange.accepted log (origin k) = Tags.before Exchange.accepted log k := by
    obtain ⟨reply, hreply, htag⟩ := Exchange.accepted_reply (sendCmd_of_mem_trace (List.mem_of_getElem? hx)) haccepted
    obtain ⟨hle, y, hy, hanswer⟩ := horigin k x reply hx haccepted hreply
    rw [htag, tag_of_trace hx, tag_of_trace hy] at hanswer
    refine ⟨hle, Tags.before_eq_of_mod_eq hfew ?_⟩
    have hnat := congrArg UInt16.toNat (add_left_cancel hanswer)
    simpa using hnat.symm
  intro k x hx haccepted
  obtain ⟨hle, hbefore⟩ := hsame hx haccepted
  refine ⟨fun j y hj hjk hy => Tags.not_between hbefore hj hjk hy, fun k' x' hk' hx' haccepted' => ?_⟩
  have hbefore' := (hsame hx' haccepted').2
  have hnext := Tags.before_succ hx haccepted
  have hmono : Tags.before Exchange.accepted log (k + 1) ≤ Tags.before Exchange.accepted log k' := Tags.before_mono hk'
  have hlt : Tags.before Exchange.accepted log (origin k) < Tags.before Exchange.accepted log (origin k') := by omega
  exact Tags.lt_of_before_lt hlt

/-- A reply to `write_register`, at first cut short. -/
def lateReplies : List Command :=
  let reply : Bytes := fun a => [0x52, 0x42, 1, 0, 3, 0, 0, 0, 0, 0].getD a 0
  [⟨3, [6, 0, 0, 0], 4, fun _ => 0, 12, [⟨3, reply⟩]⟩, ⟨3, [6, 0, 2, 0], 4, fun _ => 0, 12, [⟨0, reply⟩, ⟨10, reply⟩]⟩]

theorem accepted_replies_are_fresh_late :
    let log := Machine.trace commandStep commandLog 0 lateReplies
    log.map Exchange.accepted = [false, true] ∧
      ∀ (j : ℕ) (y : Exchange), 0 ≤ j → j < 1 → log[j]? = some y → y.accepted = false := by
  intro log
  refine ⟨by decide, (accepted_replies_are_fresh (fun _ => 0) (by decide) ?_ 1 _ rfl (by decide)).1⟩
  intro k x reply hx haccepted hreply
  rcases k with _ | _ | k
  · cases hx
    exact absurd haccepted (by decide)
  · cases hx
    cases hreply
    exact ⟨by decide, _, rfl, by decide⟩
  · cases hx

end CarBoundary
