import SnesApu.Apu.DspState

/-!
# Voices

The nine steps of a voice, with the Gaussian interpolation, the envelope and
the BRR decoder they use, as in SPC_DSP.cpp.
-/

namespace SnesApu.Apu

open General

def gaussTable : List ℤ := [
  0, 0, 0, 0, 0, 0, 0, 0, 0, 0, 0, 0, 0, 0, 0, 0, 1, 1, 1, 1, 1, 1, 1, 1, 1, 1, 1, 2, 2, 2, 2, 2,
  2, 2, 3, 3, 3, 3, 3, 4, 4, 4, 4, 4, 5, 5, 5, 5, 6, 6, 6, 6, 7, 7, 7, 8, 8, 8, 9, 9, 9, 10, 10,
  10, 11, 11, 11, 12, 12, 13, 13, 14, 14, 15, 15, 15, 16, 16, 17, 17, 18, 19, 19, 20, 20, 21, 21,
  22, 23, 23, 24, 24, 25, 26, 27, 27, 28, 29, 29, 30, 31, 32, 32, 33, 34, 35, 36, 36, 37, 38, 39,
  40, 41, 42, 43, 44, 45, 46, 47, 48, 49, 50, 51, 52, 53, 54, 55, 56, 58, 59, 60, 61, 62, 64, 65,
  66, 67, 69, 70, 71, 73, 74, 76, 77, 78, 80, 81, 83, 84, 86, 87, 89, 90, 92, 94, 95, 97, 99, 100,
  102, 104, 106, 107, 109, 111, 113, 115, 117, 118, 120, 122, 124, 126, 128, 130, 132, 134, 137,
  139, 141, 143, 145, 147, 150, 152, 154, 156, 159, 161, 163, 166, 168, 171, 173, 175, 178, 180,
  183, 186, 188, 191, 193, 196, 199, 201, 204, 207, 210, 212, 215, 218, 221, 224, 227, 230, 233,
  236, 239, 242, 245, 248, 251, 254, 257, 260, 263, 267, 270, 273, 276, 280, 283, 286, 290, 293,
  297, 300, 304, 307, 311, 314, 318, 321, 325, 328, 332, 336, 339, 343, 347, 351, 354, 358, 362,
  366, 370, 374, 378, 381, 385, 389, 393, 397, 401, 405, 410, 414, 418, 422, 426, 430, 434, 439,
  443, 447, 451, 456, 460, 464, 469, 473, 477, 482, 486, 491, 495, 499, 504, 508, 513, 517, 522,
  527, 531, 536, 540, 545, 550, 554, 559, 563, 568, 573, 577, 582, 587, 592, 596, 601, 606, 611,
  615, 620, 625, 630, 635, 640, 644, 649, 654, 659, 664, 669, 674, 678, 683, 688, 693, 698, 703,
  708, 713, 718, 723, 728, 732, 737, 742, 747, 752, 757, 762, 767, 772, 777, 782, 787, 792, 797,
  802, 806, 811, 816, 821, 826, 831, 836, 841, 846, 851, 855, 860, 865, 870, 875, 880, 884, 889,
  894, 899, 904, 908, 913, 918, 923, 927, 932, 937, 941, 946, 951, 955, 960, 965, 969, 974, 978,
  983, 988, 992, 997, 1001, 1005, 1010, 1014, 1019, 1023, 1027, 1032, 1036, 1040, 1045, 1049,
  1053, 1057, 1061, 1066, 1070, 1074, 1078, 1082, 1086, 1090, 1094, 1098, 1102, 1106, 1109, 1113,
  1117, 1121, 1125, 1128, 1132, 1136, 1139, 1143, 1146, 1150, 1153, 1157, 1160, 1164, 1167, 1170,
  1174, 1177, 1180, 1183, 1186, 1190, 1193, 1196, 1199, 1202, 1205, 1207, 1210, 1213, 1216, 1219,
  1221, 1224, 1227, 1229, 1232, 1234, 1237, 1239, 1241, 1244, 1246, 1248, 1251, 1253, 1255, 1257,
  1259, 1261, 1263, 1265, 1267, 1269, 1270, 1272, 1274, 1275, 1277, 1279, 1280, 1282, 1283, 1284,
  1286, 1287, 1288, 1290, 1291, 1292, 1293, 1294, 1295, 1296, 1297, 1297, 1298, 1299, 1300, 1300,
  1301, 1302, 1302, 1303, 1303, 1303, 1304, 1304, 1304, 1304, 1304, 1305, 1305]

def gauss (i : ℕ) : ℤ := gaussTable.getD i 0

def interpolate (v : Voice) : Checked ℤ := do
  let offset := v.interpPos / 2 ^ 4 % 256
  let fwd := 255 - offset
  let rev := offset
  let pos := v.interpPos / 2 ^ 12 + v.bufPos
  let g0 ← load 512 gauss fwd
  let g1 ← load 512 gauss (fwd + 256)
  let g2 ← load 512 gauss (rev + 256)
  let g3 ← load 512 gauss rev
  let s0 ← load (2 * brrBufSize) v.buf pos
  let s1 ← load (2 * brrBufSize) v.buf (pos + 1)
  let s2 ← load (2 * brrBufSize) v.buf (pos + 2)
  let s3 ← load (2 * brrBufSize) v.buf (pos + 3)
  let out := g0 * s0 / 2 ^ 11
  let out := out + g1 * s1 / 2 ^ 11
  let out := out + g2 * s2 / 2 ^ 11
  let out := int16 out
  let out := out + g3 * s3 / 2 ^ 11
  pure (maskBit0 (clamp16 out))

/-! ### Counters -/

def simpleCounterRange : ℤ := 2048 * 5 * 3

def counterRates : List ℤ := [
  simpleCounterRange + 1, 2048, 1536, 1280, 1024, 768, 640, 512, 384, 320, 256, 192, 160, 128, 96,
  80, 64, 48, 40, 32, 24, 20, 16, 12, 10, 8, 6, 5, 4, 3, 2, 1]

def counterOffsets : List ℤ := [
  1, 0, 1040, 536, 0, 1040, 536, 0, 1040, 536, 0, 1040, 536, 0, 1040, 536, 0, 1040, 536, 0, 1040,
  536, 0, 1040, 536, 0, 1040, 536, 0, 1040, 0, 0]

def runCounters (m : Dsp) : Dsp :=
  { m with counter := if m.counter - 1 < 0 then simpleCounterRange - 1 else m.counter - 1 }

def readCounter (m : Dsp) (rate : ℕ) : ℤ :=
  (m.counter + counterOffsets.getD rate 0) % counterRates.getD rate 1

/-! ### Envelope -/

/-- The next level of an ADSR envelope, the rate of the step and ADSR1. -/
def adsrEnvelope (m : Dsp) (v : Voice) : ℤ × ℕ × ℕ :=
  let envData := (m.vreg v vAdsr1).toNat
  if v.envMode = .decay ∨ v.envMode = .sustain then
    let env := v.env - 1
    let env := env - env / 2 ^ 8
    let rate :=
      if v.envMode = .decay then (m.tAdsr0 >>> 3 &&& 0x0E) + 0x10 else envData &&& 0x1F
    (env, rate, envData)
  else
    let rate := (m.tAdsr0 &&& 0x0F) * 2 + 1
    (v.env + if rate < 31 then 0x20 else 0x400, rate, envData)

/-- The same for GAIN. -/
def gainEnvelope (m : Dsp) (v : Voice) : ℤ × ℕ × ℕ :=
  let envData := (m.vreg v vGain).toNat
  let mode := envData >>> 5
  if mode < 4 then (envData * 0x10, 31, envData)
  else
    let env :=
      if mode = 4 then v.env - 0x20
      else if mode < 6 then v.env - 1 - (v.env - 1) / 2 ^ 8
      else if mode > 6 ∧ (v.hiddenEnv < 0 ∨ 0x600 ≤ v.hiddenEnv) then v.env + 0x20 + (0x8 - 0x20)
      else v.env + 0x20
    (env, envData &&& 0x1F, envData)

/-- The end of `run_envelope`: sustain level, clipping and the counter. -/
def storeEnvelope (m : Dsp) (v : Voice) (env : ℤ) (rate envData : ℕ) : Voice :=
  let mode :=
    if env / 2 ^ 8 = (envData >>> 5 : ℕ) ∧ v.envMode = .decay then .sustain else v.envMode
  let outside := env < 0 ∨ 0x7FF < env
  let level := if outside then if env < 0 then 0 else 0x7FF else env
  { v with
    envMode := if outside ∧ mode = .attack then .decay else mode
    hiddenEnv := env
    env := if readCounter m rate = 0 then level else v.env }

def runEnvelope (m : Dsp) (v : Voice) : Voice :=
  if v.envMode = .release then
    { v with env := if v.env - 0x8 < 0 then 0 else v.env - 0x8 }
  else
    let next := if m.tAdsr0 &&& 0x80 ≠ 0 then adsrEnvelope m v else gainEnvelope m v
    storeEnvelope m v next.1 next.2.1 next.2.2

/-! ### BRR decoding -/

/-- One sample from the top nybble of `nybbles` and the two samples before it,
of which `p2` is already halved. -/
def brrSample (header : ℕ) (nybbles p1 p2 : ℤ) : ℤ :=
  let s := int16 nybbles / 2 ^ 12
  let shift := header >>> 4
  let s := s * 2 ^ shift / 2
  let s := if 0xD ≤ shift then s / 2 ^ 25 * 2 ^ 11 else s
  let filter := header &&& 0x0C
  let s :=
    if 8 ≤ filter then
      let s := s + p1
      let s := s - p2
      if filter = 8 then s + p2 / 2 ^ 4 + p1 * -3 / 2 ^ 6
      else s + p1 * -13 / 2 ^ 7 + p2 * 3 / 2 ^ 4
    else if filter ≠ 0 then s + p1 / 2 + -p1 / 2 ^ 5
    else s
  int16 (clamp16 s * 2)

def decodeSamples (header : ℕ) : ℕ → ℤ → ℤ → (ℕ → ℤ) → Checked (ℕ → ℤ)
  | 0, _, _, buf => .ok buf
  | n + 1, pos, nybbles, buf => do
    let p1 ← load (2 * brrBufSize) buf (pos + (brrBufSize - 1))
    let p2 ← load (2 * brrBufSize) buf (pos + (brrBufSize - 2))
    let s := brrSample header nybbles p1 (p2 / 2)
    let buf ← store (2 * brrBufSize) buf pos s
    let buf ← store (2 * brrBufSize) buf (pos + brrBufSize) s
    decodeSamples header n (pos + 1) (nybbles * 2 ^ 4) buf

def decodeBrr (m : Dsp) (v : Voice) : Checked Voice := do
  let byte ← m.readRam ((v.brrAddr + v.brrOffset + 1) % 0x10000)
  let nybbles := m.tBrrByte * 0x100 + byte.toNat
  let buf ← decodeSamples m.tBrrHeader 4 v.bufPos nybbles v.buf
  pure { v with buf := buf, bufPos := if brrBufSize ≤ v.bufPos + 4 then 0 else v.bufPos + 4 }

/-! ### The steps of a voice -/

def voiceV1 (i : ℕ) (m : Dsp) : Dsp :=
  let v := m.voices i
  { m with tDirAddr := m.tDir.toNat * 0x100 + m.tSrcn.toNat * 4, tSrcn := m.vreg v vSrcn }

def voiceV2 (i : ℕ) (m : Dsp) : Checked Dsp := do
  let v := m.voices i
  let entry := if v.konDelay = 0 then m.tDirAddr + 2 else m.tDirAddr
  let next ← m.getLe16 entry
  pure { m with
    tBrrNextAddr := next
    tAdsr0 := (m.vreg v vAdsr0).toNat
    tPitch := (m.vreg v vPitchl).toNat }

def voiceV3a (i : ℕ) (m : Dsp) : Dsp :=
  let v := m.voices i
  { m with tPitch := m.tPitch + ((m.vreg v vPitchh).toNat &&& 0x3F : ℕ) * 2 ^ 8 }

def voiceV3b (i : ℕ) (m : Dsp) : Checked Dsp := do
  let v := m.voices i
  let byte ← m.readRam ((v.brrAddr + v.brrOffset) % 0x10000)
  let header ← m.readRam v.brrAddr
  pure { m with tBrrByte := byte.toNat, tBrrHeader := header.toNat }

/-- Pitch modulation by the voice before. -/
def modulatedPitch (m : Dsp) (v : Voice) : ℤ :=
  if m.tPmon &&& v.vbit ≠ 0 then m.tPitch + m.tOutput / 2 ^ 5 * m.tPitch / 2 ^ 10 else m.tPitch

/-- What V3c does to the processor while the key-on delay of `v` runs. -/
def konDelayDsp (m : Dsp) (v : Voice) : Dsp :=
  { m with
    tPitch := if v.konDelay = 0 then modulatedPitch m v else 0
    tBrrHeader := if v.konDelay = 5 then 0 else m.tBrrHeader
    konCheck := if v.konDelay = 5 then true else m.konCheck }

/-- What it does to the voice. -/
def konDelayVoice (m : Dsp) (v : Voice) : Voice :=
  if v.konDelay = 0 then v
  else
    { v with
      brrAddr := if v.konDelay = 5 then m.tBrrNextAddr else v.brrAddr
      brrOffset := if v.konDelay = 5 then 1 else v.brrOffset
      bufPos := if v.konDelay = 5 then 0 else v.bufPos
      env := 0
      hiddenEnv := 0
      konDelay := v.konDelay - 1
      interpPos := if (v.konDelay - 1) &&& 3 ≠ 0 then 0x4000 else 0 }

/-- The sample of a voice under its envelope. -/
def voiceSample (m : Dsp) (v : Voice) : Checked ℤ := do
  let output ← interpolate v
  let output := if m.tNon &&& v.vbit ≠ 0 then int16 (m.noise * 2) else output
  pure (maskBit0 (output * v.env / 2 ^ 11))

/-- The end of a sample, key off and key on, in this order. -/
def voiceKeys (m : Dsp) (v : Voice) : Voice :=
  let silent := m.regs rFlg &&& 0x80 ≠ 0 ∨ m.tBrrHeader &&& 3 = 1
  let keyOff := m.everyOtherSample = true ∧ m.tKoff &&& v.vbit ≠ 0
  let keyOn := m.everyOtherSample = true ∧ m.kon &&& v.vbit ≠ 0
  { v with
    env := if silent then 0 else v.env
    envMode := if keyOn then .attack else if silent ∨ keyOff then .release else v.envMode
    konDelay := if keyOn then 5 else v.konDelay }

/-- The end of V3c, from the sample to the envelope for the next one. -/
def voiceEnvelope (m : Dsp) (v : Voice) : Voice :=
  let v := voiceKeys m { v with tEnvxOut := UInt8.ofInt (v.env / 2 ^ 4) }
  if v.konDelay = 0 then runEnvelope m v else v

def voiceV3c (i : ℕ) (m : Dsp) : Checked Dsp := do
  let v := konDelayVoice m (m.voices i)
  let m := konDelayDsp m (m.voices i)
  let output ← voiceSample m v
  let m := { m with tOutput := output }
  pure (m.setVoice i (voiceEnvelope m v))

def voiceOutput (v : Voice) (ch : ℕ) (m : Dsp) : Dsp :=
  let amp := m.tOutput * int8 (m.vreg v (vVoll + ch)) / 2 ^ 7
  { m with
    tMainOut := Function.update m.tMainOut ch (clamp16 (m.tMainOut ch + amp))
    tEchoOut :=
      if m.tEon &&& v.vbit ≠ 0 then
        Function.update m.tEchoOut ch (clamp16 (m.tEchoOut ch + amp))
      else m.tEchoOut }

/-- Moving on in the BRR data, with the bit for ENDX when the sample ended. -/
def nextBrr (m : Dsp) (v : Voice) : Checked (Voice × UInt8) :=
  let offset := v.brrOffset + 2
  if brrBlockSize ≤ offset then
    if offset = brrBlockSize then
      if m.tBrrHeader &&& 1 ≠ 0 then .ok ({ v with brrAddr := m.tBrrNextAddr, brrOffset := 1 }, v.vbit)
      else .ok ({ v with brrAddr := (v.brrAddr + brrBlockSize) % 0x10000, brrOffset := 1 }, 0)
    else .error .assertion
  else .ok ({ v with brrOffset := offset }, 0)

def decodeStep (m : Dsp) (v : Voice) : Checked (Voice × UInt8) :=
  if 0x4000 ≤ v.interpPos then do
    let v ← decodeBrr m v
    nextBrr m v
  else pure (v, 0)

def applyPitch (m : Dsp) (v : Voice) : Voice :=
  let pos := v.interpPos % 0x4000 + m.tPitch
  { v with interpPos := if 0x7FFF < pos then 0x7FFF else pos }

def voiceV4 (i : ℕ) (m : Dsp) : Checked Dsp := do
  let next ← decodeStep m (m.voices i)
  let v := applyPitch m next.1
  pure (voiceOutput v 0 ({ m with tLooped := next.2 }.setVoice i v))

def voiceV5 (i : ℕ) (m : Dsp) : Dsp :=
  let v := m.voices i
  let m := voiceOutput v 1 m
  let endxBuf := m.regs rEndx ||| m.tLooped
  { m with endxBuf := if v.konDelay = 5 then endxBuf &&& ~~~v.vbit else endxBuf }

def voiceV6 (_i : ℕ) (m : Dsp) : Dsp := { m with outxBuf := UInt8.ofInt (m.tOutput / 2 ^ 8) }

def voiceV7 (i : ℕ) (m : Dsp) : Dsp :=
  { m.setReg rEndx m.endxBuf with envxBuf := (m.voices i).tEnvxOut }

def voiceV8 (i : ℕ) (m : Dsp) : Dsp := m.setReg ((m.voices i).regs + vOutx) m.outxBuf

def voiceV9 (i : ℕ) (m : Dsp) : Dsp := m.setReg ((m.voices i).regs + vEnvx) m.envxBuf

def voiceV3 (i : ℕ) (m : Dsp) : Checked Dsp := do
  let m ← voiceV3b i (voiceV3a i m)
  voiceV3c i m

def voiceV7V4V1 (i : ℕ) (m : Dsp) : Checked Dsp :=
  voiceV4 (i + 1) (voiceV1 (i + 3) (voiceV7 i m))

def voiceV8V5V2 (i : ℕ) (m : Dsp) : Checked Dsp :=
  voiceV2 (i + 2) (voiceV5 (i + 1) (voiceV8 i m))

def voiceV9V6V3 (i : ℕ) (m : Dsp) : Checked Dsp :=
  voiceV3 (i + 2) (voiceV6 (i + 1) (voiceV9 i m))

end SnesApu.Apu
