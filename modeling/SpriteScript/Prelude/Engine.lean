-- The engine: the stage, sprites, and what they can do.
namespace SpriteScript.Prelude

def engineText : String := "package spx

// Color is a color in the hue/saturation/brightness model.
type Color struct \x7b
\tH, S, B, A float64
\x7d

// HSB builds an opaque color from hue, saturation and brightness.
func HSB(h, s, b float64) Color

// HSBA builds a color from hue, saturation, brightness and alpha.
func HSBA(h, s, b, a float64) Color

// Direction is a heading in degrees; 0 points up.
type Direction float64

const (
\tRight Direction = 90
\tLeft  Direction = -90
\tUp    Direction = 0
\tDown  Direction = 180
)

// Key identifies a keyboard key.
type Key int

const (
\tKey0 Key = 48
\tKey1 Key = 49
\tKey2 Key = 50
\tKey3 Key = 51
\tKey4 Key = 52
\tKey5 Key = 53
\tKey6 Key = 54
\tKey7 Key = 55
\tKey8 Key = 56
\tKey9 Key = 57
\tKeyA Key = 65
\tKeyB Key = 66
\tKeyC Key = 67
\tKeyD Key = 68
\tKeyE Key = 69
\tKeyF Key = 70
\tKeyG Key = 71
\tKeyH Key = 72
\tKeyI Key = 73
\tKeyJ Key = 74
\tKeyK Key = 75
\tKeyL Key = 76
\tKeyM Key = 77
\tKeyN Key = 78
\tKeyO Key = 79
\tKeyP Key = 80
\tKeyQ Key = 81
\tKeyR Key = 82
\tKeyS Key = 83
\tKeyT Key = 84
\tKeyU Key = 85
\tKeyV Key = 86
\tKeyW Key = 87
\tKeyX Key = 88
\tKeyY Key = 89
\tKeyZ Key = 90
\tKeySpace Key = 32
\tKeyEnter Key = 257
\tKeyEscape Key = 256
\tKeyRight Key = 262
\tKeyLeft Key = 263
\tKeyDown Key = 264
\tKeyUp Key = 265
)

// RotationStyle controls how a sprite turns when its heading changes.
type RotationStyle int

const (
\tNone      RotationStyle = 0
\tNormal    RotationStyle = 1
\tLeftRight RotationStyle = 2
)

// SpecialObj names a target that is not a sprite.
type SpecialObj int

const (
\tMouse      SpecialObj = -5
\tEdge       SpecialObj = 15
\tEdgeLeft   SpecialObj = 1
\tEdgeTop    SpecialObj = 2
\tEdgeRight  SpecialObj = 4
\tEdgeBottom SpecialObj = 8
)

// EffectKind selects a graphic effect.
type EffectKind int

const (
\tColorEffect      EffectKind = 0
\tFishEyeEffect    EffectKind = 1
\tWhirlEffect      EffectKind = 2
\tPixelateEffect   EffectKind = 3
\tMosaicEffect     EffectKind = 4
\tBrightnessEffect EffectKind = 5
\tGhostEffect      EffectKind = 6
)

// PlayAction controls sound playback.
type PlayAction int

const (
\tPlayRewind   PlayAction = 0
\tPlayContinue PlayAction = 1
\tPlayPause    PlayAction = 2
\tPlayResume   PlayAction = 3
\tPlayStop     PlayAction = 4
)

// BackdropName is the name of a backdrop resource.
type BackdropName string

// SoundName is the name of a sound resource.
type SoundName string

// SpriteName is the name of a sprite resource.
type SpriteName string

// SpriteCostumeName is the name of a costume of a sprite.
type SpriteCostumeName string

// SpriteAnimationName is the name of an animation of a sprite.
type SpriteAnimationName string

// WidgetName is the name of a widget resource.
type WidgetName string

// Sound is a loaded sound resource.
type Sound struct\x7b\x7d

// Monitor is an on-screen widget showing a value.
type Monitor struct\x7b\x7d

// Show the widget.
func (p *Monitor) show()

// Hide the widget.
func (p *Monitor) hide()

// Sprite is implemented by every sprite class.
type Sprite interface \x7b
\tname() string
\tvisible() bool
\x7d

type baseObj struct\x7b\x7d

// setGraphicEffect sets a graphic effect to an absolute value.
func (p *baseObj) setGraphicEffect(kind EffectKind, val float64)

// changeGraphicEffect changes a graphic effect by a delta.
func (p *baseObj) changeGraphicEffect(kind EffectKind, delta float64)

// clearGraphicEffects resets every graphic effect.
func (p *baseObj) clearGraphicEffects()

// Game is the stage: backdrops, sounds, messages and global input.
type Game struct \x7b
\tbaseObj
\x7d

// onStart registers a handler run when the program starts.
func (p *Game) onStart(onStart func())

// onClick registers a handler run when the stage is clicked.
func (p *Game) onClick(onClick func())

// onKey registers a handler run when the key is pressed.
func (p *Game) onKey(key Key, onKey func())

// onKey registers a handler run when any of the keys is pressed.
func (p *Game) onKey(keys []Key, onKey func(key Key))

// onAnyKey registers a handler run when any key is pressed.
func (p *Game) onAnyKey(onAnyKey func(key Key))

// onMsg registers a handler run when the message is broadcast.
func (p *Game) onMsg(msg string, onMsg func())

// onMsg registers a handler run for every broadcast message.
func (p *Game) onMsg(onMsg func(msg string, data any))

// onBackdrop registers a handler run when the backdrop switches to name.
func (p *Game) onBackdrop(name BackdropName, onBackdrop func())

// onBackdrop registers a handler run whenever the backdrop switches.
func (p *Game) onBackdrop(onBackdrop func(name BackdropName))

// broadcast sends a message to every onMsg handler.
func (p *Game) broadcast(msg string)

// broadcast sends a message, optionally waiting for the handlers.
func (p *Game) broadcast(msg string, wait bool)

// broadcast sends a message with data, optionally waiting for the handlers.
func (p *Game) broadcast(msg string, data any, wait bool)

// play starts playing a sound.
func (p *Game) play(sound SoundName)

// play plays a sound, optionally waiting until it ends.
func (p *Game) play(sound SoundName, wait bool)

// play applies a playback action to a sound.
func (p *Game) play(sound SoundName, action PlayAction)

// play starts playing a sound.
func (p *Game) play(sound Sound)

// play plays a sound, optionally waiting until it ends.
func (p *Game) play(sound Sound, wait bool)

// stopAllSounds stops every playing sound.
func (p *Game) stopAllSounds()

// setBackdrop switches to the named backdrop.
func (p *Game) setBackdrop(backdrop BackdropName)

// setBackdrop switches to the backdrop at index.
func (p *Game) setBackdrop(index int)

// nextBackdrop switches to the next backdrop.
func (p *Game) nextBackdrop()

// prevBackdrop switches to the previous backdrop.
func (p *Game) prevBackdrop()

// backdropName returns the name of the current backdrop.
func (p *Game) backdropName() BackdropName

// wait pauses for the given number of seconds.
func (p *Game) wait(secs float64)

// rand returns a random integer in [from, to].
func (p *Game) rand(from, to int) int

// rand returns a random number in [from, to].
func (p *Game) rand(from, to float64) float64

// mouseX returns the horizontal mouse position.
func (p *Game) mouseX() float64

// mouseY returns the vertical mouse position.
func (p *Game) mouseY() float64

// mousePressed reports whether a mouse button is down.
func (p *Game) mousePressed() bool

// keyPressed reports whether the key is down.
func (p *Game) keyPressed(key Key) bool

// getWidget returns the named widget.
func (p *Game) getWidget(name WidgetName) Monitor

// ask shows a question and waits for an answer.
func (p *Game) ask(msg any)

// answer returns the last answer typed by the user.
func (p *Game) answer() string

// run starts the game with its asset root and options.
func (p *Game) run(args ...any)

// SpriteImpl is the behavior shared by every sprite.
type SpriteImpl struct \x7b
\tbaseObj
\x7d

// onClick registers a handler run when the sprite is clicked.
func (p *SpriteImpl) onClick(onClick func())

// onTouchStart registers a handler run when the sprite starts touching the named sprite.
func (p *SpriteImpl) onTouchStart(sprite SpriteName, onTouchStart func())

// onTouchStart registers a handler run when the sprite starts touching another sprite.
func (p *SpriteImpl) onTouchStart(onTouchStart func(sprite Sprite))

// onCloned registers a handler run in a new clone.
func (p *SpriteImpl) onCloned(onCloned func())

// onCloned registers a handler run in a new clone with its data.
func (p *SpriteImpl) onCloned(onCloned func(data any))

// say shows a speech bubble.
func (p *SpriteImpl) say(msg any)

// say shows a speech bubble for a number of seconds.
func (p *SpriteImpl) say(msg any, secs float64)

// think shows a thought bubble.
func (p *SpriteImpl) think(msg any)

// think shows a thought bubble for a number of seconds.
func (p *SpriteImpl) think(msg any, secs float64)

// move moves the sprite forward.
func (p *SpriteImpl) move(step float64)

// step moves the sprite forward, animating its costume.
func (p *SpriteImpl) step(step float64)

// turn rotates the sprite by degrees.
func (p *SpriteImpl) turn(degree float64)

// turn rotates the sprite by a direction.
func (p *SpriteImpl) turn(dir Direction)

// turnTo points the sprite towards the named sprite.
func (p *SpriteImpl) turnTo(sprite SpriteName)

// turnTo points the sprite towards another sprite.
func (p *SpriteImpl) turnTo(obj Sprite)

// turnTo points the sprite in a direction.
func (p *SpriteImpl) turnTo(dir Direction)

// turnTo points the sprite towards a special object.
func (p *SpriteImpl) turnTo(obj SpecialObj)

// heading returns the current direction.
func (p *SpriteImpl) heading() Direction

// setHeading sets the current direction.
func (p *SpriteImpl) setHeading(dir Direction)

// goto moves the sprite to the named sprite.
func (p *SpriteImpl) goto(sprite SpriteName)

// goto moves the sprite to another sprite.
func (p *SpriteImpl) goto(obj Sprite)

// goto moves the sprite to a special object.
func (p *SpriteImpl) goto(obj SpecialObj)

// glide moves the sprite to a position over a number of seconds.
func (p *SpriteImpl) glide(x, y float64, secs float64)

// glide moves the sprite to the named sprite over a number of seconds.
func (p *SpriteImpl) glide(sprite SpriteName, secs float64)

// setXYpos moves the sprite to a position.
func (p *SpriteImpl) setXYpos(x, y float64)

// changeXYpos moves the sprite by a delta.
func (p *SpriteImpl) changeXYpos(dx, dy float64)

// xpos returns the horizontal position.
func (p *SpriteImpl) xpos() float64

// ypos returns the vertical position.
func (p *SpriteImpl) ypos() float64

// setRotationStyle sets how the sprite rotates.
func (p *SpriteImpl) setRotationStyle(style RotationStyle)

// costumeName returns the name of the current costume.
func (p *SpriteImpl) costumeName() SpriteCostumeName

// setCostume switches to the named costume.
func (p *SpriteImpl) setCostume(costume SpriteCostumeName)

// setCostume switches to the costume at index.
func (p *SpriteImpl) setCostume(index int)

// nextCostume switches to the next costume.
func (p *SpriteImpl) nextCostume()

// prevCostume switches to the previous costume.
func (p *SpriteImpl) prevCostume()

// animate plays the named animation.
func (p *SpriteImpl) animate(name SpriteAnimationName)

// show makes the sprite visible.
func (p *SpriteImpl) show()

// hide makes the sprite invisible.
func (p *SpriteImpl) hide()

// visible reports whether the sprite is shown.
func (p *SpriteImpl) visible() bool

// size returns the scale of the sprite.
func (p *SpriteImpl) size() float64

// setSize sets the scale of the sprite.
func (p *SpriteImpl) setSize(size float64)

// changeSize changes the scale of the sprite by a delta.
func (p *SpriteImpl) changeSize(delta float64)

// setPenColor sets the color of the pen.
func (p *SpriteImpl) setPenColor(color Color)

// penDown starts drawing.
func (p *SpriteImpl) penDown()

// penUp stops drawing.
func (p *SpriteImpl) penUp()

// clone creates a copy of the sprite.
func (p *SpriteImpl) clone()

// clone creates a copy of the sprite carrying data.
func (p *SpriteImpl) clone(data any)

// destroy removes a clone.
func (p *SpriteImpl) destroy()

// die plays the death animation and hides the sprite.
func (p *SpriteImpl) die()

// touching reports whether the sprite touches the named sprite.
func (p *SpriteImpl) touching(sprite SpriteName) bool

// touching reports whether the sprite touches another sprite.
func (p *SpriteImpl) touching(obj Sprite) bool

// touching reports whether the sprite touches a special object.
func (p *SpriteImpl) touching(obj SpecialObj) bool

// distanceTo returns the distance to the named sprite.
func (p *SpriteImpl) distanceTo(sprite SpriteName) float64

// distanceTo returns the distance to another sprite.
func (p *SpriteImpl) distanceTo(obj Sprite) float64

// distanceTo returns the distance to a special object.
func (p *SpriteImpl) distanceTo(obj SpecialObj) float64

// name returns the name of the sprite.
func (p *SpriteImpl) name() string
"

end SpriteScript.Prelude
