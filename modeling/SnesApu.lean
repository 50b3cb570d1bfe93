import SnesApu.General.Width
import SnesApu.General.Machine
import SnesApu.General.Rank
import SnesApu.General.KeyedScan
import SnesApu.General.Escape
import SnesApu.General.CatchUp
import SnesApu.General.Checked
import SnesApu.General.Outcome
import SnesApu.General.Program
import SnesApu.Storage
import SnesApu.Id666Tag
import SnesApu.Id666Extended
import SnesApu.Id666Parse
import SnesApu.Emulator
import SnesApu.Environment
import SnesApu.TrackPath
import SnesApu.NameNumber
import SnesApu.DirectoryScan
import SnesApu.Codec
import SnesApu.ReadTag
import SnesApu.Opening
import SnesApu.Counts
import SnesApu.Durations
import SnesApu.SeekRange
import SnesApu.IdealPlayer
import SnesApu.PlayerRefinement
import SnesApu.PlayLength
import SnesApu.LoadGuard
import SnesApu.ArchiveTracks
import SnesApu.NumberingSafety
import SnesApu.Numbering
import SnesApu.DirectoryNumbers
import SnesApu.UrlEncoding
import SnesApu.Apu.Timer
import SnesApu.Apu.DspState
import SnesApu.Apu.DspVoice
import SnesApu.Apu.DspRun
import SnesApu.Apu.DspBounds
import SnesApu.Apu.DspEchoBounds
import SnesApu.Apu.DspSafety
import SnesApu.Apu.DspReachable
import SnesApu.Apu.Smp
import SnesApu.Apu.Cpu
import SnesApu.Apu.CpuTiming
import SnesApu.Apu.Run
import SnesApu.Apu.RunSafety
import SnesApu.Apu.Frames
import SnesApu.Apu.Output
import SnesApu.Apu.Player
import SnesApu.Apu.Halted
import SnesApu.Apu.Stream
import SnesApu.Apu.Library
import SnesApu.Apu.FastPaths
import SnesApu.Apu.Flags
import SnesApu.Apu.Coherence
import SnesApu.Apu.Ports
import SnesApu.Apu.SaveState
