import Chip8.CallStack
import Chip8.Console.Arguments
import Chip8.Console.Bell
import Chip8.Console.Directory
import Chip8.Console.Keyboard
import Chip8.Console.Path
import Chip8.Console.Row
import Chip8.Console.Screen
import Chip8.Console.Session
import Chip8.Console.Settings
import Chip8.Console.Title
import Chip8.Display
import Chip8.Fault
import Chip8.Instruction.Assembly
import Chip8.Instruction.Basic
import Chip8.Instruction.Encoding
import Chip8.Instruction.Image
import Chip8.Instruction.RoundTrip
import Chip8.Keypad
import Chip8.Log
import Chip8.Machine.Basic
import Chip8.Machine.Cycle
import Chip8.Machine.Execute
import Chip8.Main
import Chip8.Memory.Basic
import Chip8.Memory.Font
import Chip8.Random.ChaCha
import Chip8.Random.Generator
import Chip8.Registers
import Chip8.Text.CharSet
import Chip8.Text.Cluster
import Chip8.Text.Emoji
import Chip8.Text.Hangul
import Chip8.Text.Hex
import Chip8.Text.Indic
import Chip8.Text.Ligature
import Chip8.Text.Marks
import Chip8.Text.Unsigned
import Chip8.Text.Width.Basic
import Chip8.Text.Width.Measure
import Chip8.Text.Width.Table
import Chip8.Timers
import Chip8.Word
import Chip8.Proofs.Cycle
import Chip8.Proofs.Stack
import Chip8.Proofs.Frame
import Chip8.Proofs.Calls
import Chip8.Proofs.Memory
import Chip8.Proofs.LastWrite
import Chip8.Proofs.Images
import Chip8.Proofs.Sprites
import Chip8.Proofs.Drawing
import Chip8.Proofs.Faults
import Chip8.Proofs.Checked
import Chip8.Proofs.Bounds
import Chip8.Proofs.Access
import Chip8.Proofs.StraightLine
import Chip8.Proofs.Glyphs
import Chip8.Proofs.Channels
import Chip8.Proofs.Unread
import Chip8.Proofs.Countdown
import Chip8.Proofs.Parity
import Chip8.Proofs.Stream
import Chip8.Proofs.Trace
import Chip8.Proofs.Sessions
import Chip8.Proofs.Arithmetic
import Chip8.Proofs.Stores
import Chip8.Proofs.SaveRestore
import Chip8.Proofs.Ticks
import Chip8.Proofs.Waiting
import Chip8.Proofs.ProgramCounter
import Chip8.Proofs.Disassembly
import Chip8.Proofs.HeldKeys
import Chip8.Proofs.Keypads
import Chip8.Proofs.LitPixels
import Chip8.Proofs.IndexSums
import Chip8.Proofs.PushPop
import Chip8.Proofs.Views
import Chip8.Proofs.Picture
import Chip8.Proofs.CommandLine
