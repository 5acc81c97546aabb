import Usb2T1L.Ecm.Completion

/-!
# Frames as the host sees them

The host takes the packets of the bulk IN endpoint for frames that end in a short packet.  A
call that times out leaves what the host has got of its frame with the host, and nothing
tells the host that no more of it comes: flushing the endpoint sends no packet.

## Main results

* `frames_intact_iff_betweenFrames` — in every run, what was sent whole arrives whole
  **exactly if** no call that returned 0 began while the host was in the middle of a frame.
* `timeout_splices_frames` — a frame that arrives behind the front part of another.
-/

namespace Usb2T1L

variable {n : ℕ}

instance decidableIntact (m : ℕ) (cs : List (Sending Byte)) : Decidable (Intact m cs) :=
  inferInstanceAs (Decidable (_ = _))

/-- **What arrives whole**, in every run without an `ECM_DeInit` during a send.  The host has got
the packets of the calls that have returned, in their order, and then those of the present
one; and the frames it cuts out of them are those of the calls that returned 0, one each and
in order, except for frames with no packet of such a call, exactly if each of these calls
began while the host was between two frames. -/
theorem frames_intact_iff_betweenFrames (pool : FramePool n) (sInDone : Option Bool)
    (as : List EcmAct)
    (hg : ecmSys.Along (fun s a _ => NoDeInitInSend s a) (Ecm.start pool sInDone) as) :
    ∀ s, ecmSys.run (Ecm.start pool sInDone) as = some s →
      (wire s.up.calls).map Prod.snd ++ s.up.delivered = s.up.hostIn ∧
        (Intact cdcEcmDataMaxPacketSize s.up.calls ↔
          BetweenFrames cdcEcmDataMaxPacketSize s.up.calls) := by
  intro s hrun
  have hsafe : s.UplinkSafe := Lts.run_invariant (fun s a s' h hg hs => h.step hg hs)
    (Ecm.uplinkSafe_start pool sInDone) hg hrun
  exact ⟨hsafe.up.host, frames_intact_iff (by decide) hsafe.up.sound⟩

theorem frames_intact_iff_lostTerminator : (ecmSys.run Ecm.board lostTerminator).isSome = true ∧
    ∀ s, ecmSys.run Ecm.board lostTerminator = some s →
      (wire s.up.calls).map Prod.snd ++ s.up.delivered = s.up.hostIn ∧
        (Intact cdcEcmDataMaxPacketSize s.up.calls ↔
          BetweenFrames cdcEcmDataMaxPacketSize s.up.calls) :=
  ⟨by decide, frames_intact_iff_betweenFrames _ _ _ (by decide)⟩

/-- A frame of 65 bytes is given up after its first packet; a byte is sent after it. -/
def timeoutMidFrame : List EcmAct :=
  [.init, .setInterface 1 1] ++ startSend (List.replicate 65 0) ++
    [.inPacket, .send .timeout, .send .flush, .send .clear] ++ startSend [1] ++
    [.inPacket, .inDone true, .send .take]

/-- The call for the byte returns 0, and the host gets a frame of 65 bytes that ends in it. -/
theorem timeout_splices_frames : ∃ s, ecmSys.run Ecm.board timeoutMidFrame = some s ∧
    s.up.calls.map Sending.ok = [false, true] ∧
    (received cdcEcmDataMaxPacketSize s.up.calls).map items = [List.replicate 64 0 ++ [1]] ∧
    ¬ Intact cdcEcmDataMaxPacketSize s.up.calls :=
  ⟨_, rfl, by decide, by decide, by decide⟩

end Usb2T1L
