import Chip8.Main
import Chip8.Proofs.Machine.Faults
import Chip8.Proofs.Machine.Calls
import Chip8.Proofs.Emulator.Tone
import Chip8.Proofs.Assembly
import Chip8.Proofs.AssemblyText
import Chip8.Proofs.Keypad
import Chip8.Proofs.Emulator.Display
import Chip8.Proofs.Machine.KeyWait
import Chip8.Proofs.Emulator.Parametric
import Chip8.Proofs.Emulator.Keys
import Chip8.Proofs.Emulator.Clock
import Chip8.Proofs.Emulator.Accounts
import Chip8.Proofs.Terminal.Picture
import Chip8.Proofs.Emulator.Faults
import Chip8.Proofs.Listing
import Chip8.Proofs.ListingText
import Chip8.Proofs.Command.Restored
import Chip8.Proofs.Emulator.Observers
import Chip8.Proofs.Emulator.Trace
import Chip8.Proofs.Emulator.Reset
import Chip8.Proofs.Terminal.Holding
import Chip8.Proofs.Emulator.Leaving
import Chip8.Proofs.Emulator.Loading
import Chip8.Proofs.Framebuffer
import Chip8.Proofs.Framebuffer.Drawings
import Chip8.Proofs.Memory
import Chip8.Proofs.Machine.Frame
import Chip8.Proofs.Machine.Drawing
import Chip8.Proofs.Machine.Arithmetic
import Chip8.Proofs.Machine.ProgramCounter
import Chip8.Proofs.Machine.Transfer
import Chip8.Proofs.Machine.Randomness
import Chip8.Proofs.Machine.KeyChoice
import Chip8.Proofs.Terminal.Stream
import Chip8.Proofs.Text.Integer
import Chip8.Proofs.Command.Address
import Chip8.Proofs.Emulator.Usable
