import ChipEight.Main
import ChipEight.Device.FrameRecorder
import ChipEight.Text.Lines
import ChipEight.Proofs.Bounds
import ChipEight.Proofs.Decoding
import ChipEight.Proofs.Execution
import ChipEight.Proofs.Ranges
import ChipEight.Proofs.Frames
import ChipEight.Proofs.Session
import ChipEight.Proofs.Strict
import ChipEight.Proofs.WellFormed
import ChipEight.Proofs.Traps
import ChipEight.Proofs.Halting
import ChipEight.Proofs.Pixels
import ChipEight.Proofs.Changes
import ChipEight.Proofs.History
import ChipEight.Proofs.OpenCalls
import ChipEight.Proofs.Timers
import ChipEight.Proofs.Programs
import ChipEight.Proofs.Surroundings
import ChipEight.Proofs.Retrying
import ChipEight.Proofs.Stores
import ChipEight.Proofs.Footprint
import ChipEight.Proofs.Transcripts
import ChipEight.Proofs.Display
import ChipEight.Proofs.Speaker
import ChipEight.Proofs.Unattended
import ChipEight.Proofs.Rounding
import ChipEight.Proofs.Shots
import ChipEight.Proofs.Recording
import ChipEight.Proofs.PixelBlocks
import ChipEight.Proofs.Windows
import ChipEight.Proofs.TonePlayers
import ChipEight.Proofs.WindowImages
import ChipEight.Proofs.Requests
import ChipEight.Proofs.FrontEnds
import ChipEight.Proofs.LikeHosts
import ChipEight.Proofs.Dialects
import ChipEight.Proofs.RandomBytes
import ChipEight.Proofs.KeyReports
import ChipEight.Proofs.RowWords
import ChipEight.Proofs.Stamps
import ChipEight.Proofs.Deadlines
import ChipEight.Proofs.Pictures
import ChipEight.Proofs.Arithmetic
import ChipEight.Proofs.ControlFlow
import ChipEight.Proofs.Transfers
import ChipEight.Proofs.KeyPresses
import ChipEight.Proofs.Bitmaps
