import CarBoundary.Camera.Command
import CarBoundary.Lib.Tags

/-!
# Commands and their replies
-/

namespace CarBoundary

/-! ## One command -/

variable {tag : UInt16} {c : Command} {r : CmdResult}

theorem tdiv_two_of_neg {x : ℤ} (h : x < 0) : x.tdiv 2 = -(-x / 2) := by
  rw [← Int.tdiv_eq_ediv_of_nonneg (by omega), Int.neg_tdiv, neg_neg]

/-- The header with which the command goes out. -/
def Command.header (c : Command) (tag : UInt16) : CamHdr := ⟨0x47, 0x4d, UInt16.ofNat (c.cmdbuf.length / 2), c.cmd, tag⟩

/-- Either the reply is the one to the command, or nothing changes. -/
theorem sendCmd_cases (h : sendCmd tag c = some r) :
    (r.camTag = tag ∧ r.replybuf = c.replybuf) ∨
      (r.camTag = tag + 1 ∧ (∀ a ≥ c.replyLen, r.replybuf a = c.replybuf a) ∧
        ∃ reply, c.reply = some reply ∧ 0 ≤ r.res ∧ r.res = reply.actualLen - (camHdrSize : ℤ) ∧
          (CamHdr.read reply.ibuf).Fits (c.header tag) r.res) := by
  unfold sendCmd at h
  split at h
  · cases h; exact .inl ⟨rfl, rfl⟩
  · dsimp only at h
    split at h
    · cases h; exact .inl ⟨rfl, rfl⟩
    · obtain ⟨reply, hreply, hr⟩ := Option.map_eq_some_iff.mp h
      split at hr
      · subst hr; exact .inl ⟨rfl, rfl⟩
      · rename_i hshort
        split at hr
        · subst hr; exact .inl ⟨rfl, rfl⟩
        · rename_i hfits
          subst hr
          have hfits' := not_not.mp hfits
          -- a negative length is not that of a header field
          have hlen : 0 ≤ reply.actualLen - (camHdrSize : ℤ) := by
            have htdiv := hfits'.2.2.2
            rw [camHdrSize] at hshort htdiv ⊢
            by_contra hneg
            rw [tdiv_two_of_neg (not_le.mp hneg)] at htdiv
            omega
          refine .inr ⟨rfl, fun a ha => ?_, reply, hreply, hlen, rfl, hfits'⟩
          have hn : (if (reply.actualLen - (camHdrSize : ℤ)).toNat > c.replyLen then c.replyLen
              else (reply.actualLen - (camHdrSize : ℤ)).toNat) ≤ c.replyLen := by split <;> omega
          refine if_neg ?_
          rw [List.length_map, List.length_range]
          omega

/-! ## Commands in a row -/

/-- `cam_tag` has been incremented, which it is for a reply that passes the checks. -/
def Exchange.accepted (x : Exchange) : Bool := decide (x.result.camTag ≠ x.tag)

variable {calls : List Command} {x : Exchange}

theorem mem_commandLog : x ∈ commandLog tag c ↔ ∃ r, sendCmd tag c = some r ∧ x = ⟨tag, c, r⟩ := by
  rw [commandLog, Option.mem_toList, Option.map_eq_some_iff]
  exact exists_congr fun r => and_congr_right fun _ => eq_comm

theorem sendCmd_of_mem_trace (h : x ∈ Machine.trace commandStep commandLog tag calls) :
    sendCmd x.tag x.command = some x.result := by
  refine Machine.forall_trace (P := fun x => sendCmd x.tag x.command = some x.result) (fun c _ tag x hx => ?_) tag x h
  obtain ⟨r, hr, rfl⟩ := mem_commandLog.mp hx
  exact hr

/-- The reply that has been accepted carries the tag of the command. -/
theorem Exchange.accepted_reply (h : sendCmd x.tag x.command = some x.result) (haccepted : x.accepted = true) :
    ∃ reply, x.command.reply = some reply ∧ (CamHdr.read reply.ibuf).tag = x.tag := by
  rcases sendCmd_cases h with ⟨hsame, _⟩ | ⟨_, _, reply, hreply, _, _, hfits⟩
  · exact absurd hsame (of_decide_eq_true haccepted)
  · exact ⟨reply, hreply, hfits.2.2.1⟩

/-- The tag counts the commands that have been accepted. -/
theorem tag_of_trace {k : ℕ} (h : (Machine.trace commandStep commandLog tag calls)[k]? = some x) :
    x.tag = tag + UInt16.ofNat (Tags.before Exchange.accepted (Machine.trace commandStep commandLog tag calls) k) := by
  induction calls generalizing tag k with
  | nil => cases h
  | cons c calls ih =>
      cases hr : sendCmd tag c with
      | none => simp [Machine.trace, commandStep, commandLog, hr] at h
      | some r =>
          have hstep : commandStep tag c = some r.camTag := by rw [commandStep, hr]; rfl
          have htrace : Machine.trace commandStep commandLog tag (c :: calls) =
              ⟨tag, c, r⟩ :: Machine.trace commandStep commandLog r.camTag calls := by
            rw [Machine.trace_cons hstep, commandLog, hr]
            rfl
          rw [htrace] at h ⊢
          cases k with
          | zero =>
              cases h
              exact (add_zero tag).symm
          | succ k =>
              have htag := ih (by simpa using h)
              rw [Tags.before, List.take_succ_cons, List.countP_cons, ← Tags.before, htag]
              rcases sendCmd_cases hr with ⟨hsame, _⟩ | ⟨hnext, _⟩
              · have hno : Exchange.accepted ⟨tag, c, r⟩ = false := by simp [Exchange.accepted, hsame]
                rw [hsame, hno]
                rfl
              · have hyes : Exchange.accepted ⟨tag, c, r⟩ = true := by simp [Exchange.accepted, hnext]
                rw [hnext, hyes, if_pos rfl, UInt16.ofNat_add, add_assoc]
                exact congrArg (tag + ·) (add_comm _ _)

end CarBoundary
