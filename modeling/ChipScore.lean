import ChipScore.Command.Listing
import ChipScore.Main
import ChipScore.Tracker.LoadedSong
import ChipScore.Proofs.LoopProgram
import ChipScore.Proofs.Performing
import ChipScore.Proofs.LoopUnrolling
import ChipScore.Proofs.RowCode
import ChipScore.Proofs.Scan
import ChipScore.Proofs.LoadedInstrument
import ChipScore.Proofs.LoadedInfo
import ChipScore.Proofs.LoadedSong
import ChipScore.Proofs.Texts
import ChipScore.Proofs.Bank
import ChipScore.Proofs.Arrangement
import ChipScore.Proofs.ChannelRows
import ChipScore.Proofs.ModuleSize
import ChipScore.Proofs.Conversion
import ChipScore.Proofs.Runs
import ChipScore.Proofs.LoopStack
import ChipScore.Proofs.RowMarks
import ChipScore.Proofs.Timing
import ChipScore.Proofs.KeyOns
import ChipScore.Proofs.KeyOffs
import ChipScore.Proofs.KeyOffOwners
import ChipScore.Proofs.Listings
import ChipScore.Proofs.EffectColumns
import ChipScore.Proofs.Timelines
import ChipScore.Proofs.TempoChanges
import ChipScore.Proofs.SongTempo
import ChipScore.Proofs.Relocation
import ChipScore.Proofs.CommandEffects
import ChipScore.Proofs.SettingsLog
import ChipScore.Proofs.EventRanges
import ChipScore.Proofs.BankNumbers
import ChipScore.Proofs.Lockstep
import ChipScore.Proofs.ModuleLayout
import ChipScore.Proofs.ReadingEnds
import ChipScore.Proofs.SongLoop
import ChipScore.Proofs.VoiceNumbers
import ChipScore.Proofs.NoteEffects
import ChipScore.Proofs.KeptSettings
import ChipScore.Proofs.TiedTones
import ChipScore.Proofs.HeldTones
import ChipScore.Proofs.VolumeMacros
import ChipScore.Proofs.SilentReleases
import ChipScore.Proofs.TrailingTexts
import ChipScore.Proofs.PartRanges
import ChipScore.Proofs.VoiceRegisters
import ChipScore.Proofs.Delays
